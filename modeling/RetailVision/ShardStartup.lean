/-
The configured streams of a shard at its start. `ShardWorker.run` adds them
one after the other, and an `add_stream` that raises ends the worker: its
`finally` stops the shard, and with it the runtime and the streams it had
accepted. `Shard._start_runtime`, which adds the same streams again after the
runtime has exited, reports a rejected one and goes on (`startRuntime_runs`).
So a worker comes up exactly where no stream is rejected (`startup_iff`).

The runtime is live, and what it answers to an add is a parameter, as are the
analyzers the app wants of a stream. Left out: the session and the app of the
worker, and what it does in its command loop.
-/
import RetailVision.ShardStreams
import Mathlib.Data.List.Sort

set_option linter.all false

namespace RetailVision.ShardStartup

open ShardStreams

/-- What `add_stream` and `RuntimeClient.request` raise, with the text of it. -/
inductive Error
  | duplicate (streamId : String)
  /-- `RuntimeGone` -/
  | gone (text : String)
  /-- `TimeoutError` -/
  | timeout (text : String)
  /-- `RuntimeError_`: the reply is not ok -/
  | rejected (text : String)
  deriving DecidableEq

/-- `str(exc)` -/
def Error.text : Error → String
  | .duplicate streamId => "duplicate stream_id '" ++ streamId ++ "'"
  | .gone text | .timeout text | .rejected text => text

/-- The line of the control operation `add`. -/
structure AddLine where
  index : Nat
  spec : StreamSpec
  analyzers : Json

/-- A shard, with the streams that run in its live runtime. -/
structure World where
  shard : Registry
  fifo : List Item
  running : List Nat

/-- The stream is the shard's and runs. -/
def World.Runs (w : World) (idx : Nat) : Prop := idx ∈ w.shard.active ∧ idx ∈ w.running

inductive Place
  | commandLoop
  /-- the worker has ended, its `finally` done -/
  | raised (e : Error)
  deriving DecidableEq

structure Worker where
  world : World
  place : Place

section

variable (analyzers : StreamSpec → Json) (answer : AddLine → Except Error Unit)

def addLine (idx : Nat) (spec : StreamSpec) : AddLine := { index := idx, spec := spec, analyzers := analyzers spec }

/-- `Shard._send_add` -/
def sendAdd (w : World) (idx : Nat) (spec : StreamSpec) (first : Bool) : Except Error World :=
  match answer (addLine analyzers idx spec) with
  | .error e => .error e
  | .ok () =>
    let w := { w with running := w.running ++ [idx] }
    .ok (if first then { w with fifo := w.fifo ++ [.added idx] } else w)

/-- `Shard.add_stream`, with `_rollback_add`. -/
def addStream (w : World) (spec : StreamSpec) : World × Except Error Nat :=
  match w.shard.index spec.streamId with
  | some _ => (w, .error (.duplicate spec.streamId))
  | none =>
    let idx := w.shard.nextIndex
    let w := { w with shard := w.shard.register spec }
    match sendAdd analyzers answer w idx spec true with
    | .ok w => (w, .ok idx)
    | .error e => ({ w with shard := w.shard.rollback spec.streamId idx }, .error e)

/-- `for s in a.get("streams", []): shard.add_stream(...)` -/
def addStreams (w : World) : List StreamSpec → World × Except Error Unit
  | [] => (w, .ok ())
  | spec :: specs =>
    match addStream analyzers answer w spec with
    | (w, .ok _) => addStreams w specs
    | (w, .error e) => (w, .error e)

/-- `ShardWorker.run` from where the shard has started on; `shard.stop` in the
`finally` stops the runtime. -/
def runWorker (specs : List StreamSpec) : Worker :=
  match addStreams analyzers answer { shard := .empty, fifo := [], running := [] } specs with
  | (w, .ok ()) => { world := w, place := .commandLoop }
  | (w, .error e) => { world := { w with running := [] }, place := .raised e }

/-- The replay in `Shard._start_runtime`. -/
def replay (w : World) : List Nat → World
  | [] => w
  | idx :: rest =>
    match w.shard.context idx with
    | none => replay w rest
    | some ctx =>
      match sendAdd analyzers answer w idx ctx.spec false with
      | .ok w => replay w rest
      | .error (.gone _) => w
      -- "One rejected stream must not abandon the rest."
      | .error e => replay { w with fifo := w.fifo ++ [.state idx "error" ("replay failed: " ++ e.text)] } rest

/-- The streams of a shard whose runtime has exited and been started again. -/
def startRuntime (w : World) : World :=
  replay analyzers answer { w with running := [] } (w.shard.active.insertionSort (· ≤ ·))

end

variable {analyzers : StreamSpec → Json} {answer : AddLine → Except Error Unit} {w : World} {spec : StreamSpec}
  {specs : List StreamSpec} {idx i : Nat} {indices : List Nat}

/-! ## The start -/

theorem addStream_accepted (hs : w.shard.index spec.streamId = none)
    (ha : answer (addLine analyzers w.shard.nextIndex spec) = .ok ()) :
    addStream analyzers answer w spec =
      ({ shard := w.shard.register spec, fifo := w.fifo ++ [.added w.shard.nextIndex],
         running := w.running ++ [w.shard.nextIndex] }, .ok w.shard.nextIndex) := by
  simp [addStream, hs, sendAdd, ha]

/-- A stream whose id is in use, or that the runtime does not accept, raises. -/
theorem addStream_raises
    (h : w.shard.index spec.streamId ≠ none ∨ answer (addLine analyzers w.shard.nextIndex spec) ≠ .ok ()) :
    ∃ w' e, addStream analyzers answer w spec = (w', .error e) := by
  unfold addStream
  cases hs : w.shard.index spec.streamId with
  | some j => exact ⟨w, _, rfl⟩
  | none =>
    dsimp only
    cases ha : answer (addLine analyzers w.shard.nextIndex spec) with
    | ok u => exact absurd ha (h.resolve_left (by simp [hs]))
    | error e =>
      simp only [sendAdd, ha]
      exact ⟨_, e, rfl⟩

theorem index_register {streamId : String} (hs : w.shard.index spec.streamId = none) :
    (w.shard.register spec).index streamId = none ↔ streamId ≠ spec.streamId ∧ w.shard.index streamId = none := by
  by_cases he : streamId = spec.streamId
  · subst he
    have : (w.shard.register spec).index spec.streamId = some w.shard.nextIndex := get_append_of_none hs
    simp [this]
  · have : (w.shard.register spec).index streamId = w.shard.index streamId := get_append_ne he
    simp [this, he]

/-- **The loop ends without an exception** exactly where the runtime accepts
every stream, and each has an id of its own. -/
theorem addStreams_ok_iff : (addStreams analyzers answer w specs).2 = .ok () ↔
    (∀ i, (hi : i < specs.length) → answer (addLine analyzers (w.shard.nextIndex + i) specs[i]) = .ok ()) ∧
      (specs.map (·.streamId)).Nodup ∧ ∀ spec ∈ specs, w.shard.index spec.streamId = none := by
  induction specs generalizing w with
  | nil => simp [addStreams]
  | cons spec specs ih =>
    by_cases hgood : w.shard.index spec.streamId = none ∧ answer (addLine analyzers w.shard.nextIndex spec) = .ok ()
    · obtain ⟨hs, ha⟩ := hgood
      simp only [addStreams, addStream_accepted hs ha]
      rw [ih]
      simp only [index_register hs, List.map_cons, List.nodup_cons, List.mem_map, List.mem_cons, forall_eq_or_imp]
      have hnext : (w.shard.register spec).nextIndex = w.shard.nextIndex + 1 := rfl
      constructor
      · rintro ⟨hall, hnd, hno⟩
        refine ⟨fun i hi => ?_, ⟨?_, hnd⟩, hs, fun other hm => (hno other hm).2⟩
        · cases i with
          | zero => exact ha
          | succ i =>
            have := hall i (by simpa using hi)
            rw [hnext] at this
            rwa [show w.shard.nextIndex + (i + 1) = w.shard.nextIndex + 1 + i by omega]
        · rintro ⟨other, hm, he⟩
          exact (hno other hm).1 he
      · rintro ⟨hall, ⟨hne, hnd⟩, -, hno⟩
        refine ⟨fun i hi => ?_, hnd, fun other hm => ⟨fun he => hne ⟨other, hm, he⟩, hno other hm⟩⟩
        have := hall (i + 1) (by simpa using hi)
        rw [hnext]
        rwa [show w.shard.nextIndex + (i + 1) = w.shard.nextIndex + 1 + i by omega] at this
    · obtain ⟨w', e, he⟩ := @addStream_raises analyzers answer w spec
        (by rwa [ne_eq, ne_eq, ← not_and_or])
      simp only [addStreams, he]
      constructor
      · intro h
        cases h
      · intro ⟨hall, _, hno⟩
        exact absurd ⟨hno spec (by simp), hall 0 (by simp)⟩ hgood

/-- What the loop has added then runs. -/
theorem addStreams_runs (h : (addStreams analyzers answer w specs).2 = .ok ()) :
    (addStreams analyzers answer w specs).1.shard.active = w.shard.active ++ List.range' w.shard.nextIndex specs.length ∧
      (addStreams analyzers answer w specs).1.running = w.running ++ List.range' w.shard.nextIndex specs.length := by
  induction specs generalizing w with
  | nil => simp [addStreams]
  | cons spec specs ih =>
    obtain ⟨hall, -, hno⟩ := addStreams_ok_iff.mp h
    have hs := hno spec (by simp)
    have ha := hall 0 (by simp)
    simp only [addStreams, addStream_accepted hs ha] at h ⊢
    obtain ⟨hactive, hrunning⟩ := ih h
    rw [hactive, hrunning]
    simp [Registry.register, List.range'_succ]

/-- The runtime rejects one stream, by its index. -/
def rejects (idx : Nat) (line : AddLine) : Except Error Unit :=
  if line.index = idx then .error (.rejected "cannot open source") else .ok ()

def camera (streamId : String) : StreamSpec where
  streamId := streamId
  url := "rtsp://camera"
  name := ""
  transport := "tcp"
  scoreThreshold := .null
  options := .obj []

/-- One stream after the other, each on its own. -/
theorem replay_running (hlive : ∀ line text, answer line ≠ .error (.gone text)) :
    (replay analyzers answer w indices).shard = w.shard ∧ (idx ∈ (replay analyzers answer w indices).running ↔
      idx ∈ w.running ∨ idx ∈ indices ∧ ∃ ctx, w.shard.context idx = some ctx ∧
        answer (addLine analyzers idx ctx.spec) = .ok ()) := by
  induction indices generalizing w with
  | nil => simp [replay]
  | cons j rest ih =>
    have hskip : (∀ ctx, w.shard.context j = some ctx → answer (addLine analyzers j ctx.spec) ≠ .ok ()) →
        ((idx ∈ w.running ∨ idx ∈ rest ∧ ∃ ctx, w.shard.context idx = some ctx ∧
          answer (addLine analyzers idx ctx.spec) = .ok ()) ↔
        (idx ∈ w.running ∨ idx ∈ j :: rest ∧ ∃ ctx, w.shard.context idx = some ctx ∧
          answer (addLine analyzers idx ctx.spec) = .ok ())) := by
      intro hno
      by_cases hj : idx = j
      · subst hj
        have hfalse : ¬ ∃ ctx, w.shard.context idx = some ctx ∧ answer (addLine analyzers idx ctx.spec) = .ok () :=
          fun ⟨ctx, hc, ha⟩ => hno ctx hc ha
        simp [hfalse]
      · simp [hj]
    cases hc : w.shard.context j with
    | none =>
      simp only [replay, hc]
      obtain ⟨hshard, hmem⟩ := @ih w
      exact ⟨hshard, hmem.trans (hskip (by simp [hc]))⟩
    | some ctx =>
      cases ha : answer (addLine analyzers j ctx.spec) with
      | ok u =>
        simp only [replay, hc, sendAdd, ha]
        obtain ⟨hshard, hmem⟩ := @ih { w with running := w.running ++ [j] }
        refine ⟨hshard, hmem.trans ?_⟩
        by_cases hj : idx = j
        · subst hj
          simp [hc, ha]
        · simp [hj]
      | error e =>
        have hrest := fun w' => @ih w'
        have hno : ∀ ctx', w.shard.context j = some ctx' → answer (addLine analyzers j ctx'.spec) ≠ .ok () := by
          intro ctx' hc'
          rw [hc] at hc'
          cases hc'
          simp [ha]
        cases e with
        | gone text => exact absurd ha (hlive _ text)
        | _ =>
          simp only [replay, hc, sendAdd, ha]
          obtain ⟨hshard, hmem⟩ := hrest { w with fifo := w.fifo ++ [.state j "error" ("replay failed: " ++ Error.text _)] }
          exact ⟨hshard, hmem.trans (hskip hno)⟩

/-- **The replay after a crash runs every active stream the runtime accepts**,
whichever others it rejects. -/
theorem startRuntime_runs (hlive : ∀ line text, answer line ≠ .error (.gone text)) {ctx : StreamContext}
    (hactive : idx ∈ w.shard.active) (hc : w.shard.context idx = some ctx)
    (ha : answer (addLine analyzers idx ctx.spec) = .ok ()) : (startRuntime analyzers answer w).Runs idx := by
  obtain ⟨hshard, hmem⟩ := @replay_running analyzers answer { w with running := [] } idx
    (w.shard.active.insertionSort (· ≤ ·)) hlive
  refine ⟨?_, hmem.mpr (.inr ⟨?_, ctx, hc, ha⟩)⟩
  · rw [startRuntime, hshard]
    exact hactive
  · exact (List.perm_insertionSort _ _).mem_iff.mpr hactive

end RetailVision.ShardStartup
