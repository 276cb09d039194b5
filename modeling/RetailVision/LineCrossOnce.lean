/-
"The same direction is only counted once per track per line": of a track the
line_cross analyzer remembers the direction it counted last, and no other. So
the rule holds of a run up to the first crossing, if there is one, in a
direction that was counted before and is not the one remembered; what the rule
says of a run is that there is none (`once_iff`). A track that paces to and fro
comes to such a crossing with its third.
-/
import RetailVision.LineCross

set_option linter.all false

namespace RetailVision.Vb.LineCross

open Lib (toldBy traced traced_eq_some run_cons Meets meets_cons_some)
open RetailVision.Analyzers (Line LineCrossCfg)
open Loops (acts)

variable {F D : Type}

/-- What an event counts. -/
def Event.count (ev : Event F) : UInt32 × Direction := (ev.trackId, ev.direction)

/-- Of each line, each direction is counted once for each track id. -/
def OncePerDirection (cfg : LineCrossCfg F) (out : List (Nat × Event F)) : Prop :=
  ∀ li < cfg.lines.length, ∀ tid dir, ((toldBy li out).filter fun ev => ev.trackId = tid ∧ ev.direction = dir).length ≤ 1

variable [Num F] [Num D] [Casts F D] {cfg : LineCrossCfg F} {ln : Line F}

/-- The track crosses the line, with nothing against it, in a direction in which
it has been counted on it, while another is remembered as counted last. -/
def Recounts (cfg : LineCrossCfg F) (ln : Line F) (x : LineState F D × List (Event F)) : Act F D → Prop
  | .observe m tr =>
    let s := (observed cfg x.1 tr.trackId (anchorOf m tr) m.tMonoS).1
    Crosses cfg ln s (anchorOf m tr) ∧ s.counted ≠ s.direction.sign ∧ (tr.trackId, s.direction) ∈ x.2.map Event.count
  | .remove _ _ => False

/-- One act counts a direction anew, or recounts one, or emits nothing. -/
theorem emit_count (ls : LineState F D) (out : List (Event F)) (a : Act F D) :
    ((emit cfg ln ls a out).map Event.count).Nodup ↔ (out.map Event.count).Nodup ∧ ¬ Recounts cfg ln (ls, out) a := by
  cases a with
  | remove tid t => simp [emit, Lib.tells, next, Recounts]
  | observe m tr =>
    simp only [emit, Lib.tells, next, step, Recounts]
    generalize (observed cfg ls tr.trackId (anchorOf m tr) m.tMonoS).1 = s
    obtain ⟨hc, hdir, hcross⟩ | ⟨hno, hcross⟩ := cross_cases cfg ln s tr.trackId (anchorOf m tr) tr
    · rw [hcross]
      simp only [Option.toList_some, List.map_append, List.map_cons, List.map_nil, Event.count]
      rw [List.nodup_append_comm, List.singleton_append, List.nodup_cons]
      constructor
      · intro h
        obtain ⟨hnew, hnodup⟩ := h
        exact ⟨hnodup, fun h => hnew h.2.2⟩
      · intro h
        obtain ⟨hnodup, hnew⟩ := h
        exact ⟨fun h => hnew ⟨hc, hdir, h⟩, hnodup⟩
    · rw [hcross]
      simp only [Option.toList_none, List.append_nil]
      exact ⟨fun h => ⟨h, fun hr => hr.2.1 (hno hr.1)⟩, And.left⟩

/-- What the acts of a line count. -/
theorem run_count {acts : List (Act F D)} {ls ls' : LineState F D} {out out' : List (Event F)}
    (hr : Lib.run (traced (line cfg ln) (emit cfg ln)) (ls, out) acts = some (ls', out')) :
    (out'.map Event.count).Nodup ↔ (out.map Event.count).Nodup ∧
      Meets (traced (line cfg ln) (emit cfg ln)) (fun x a => ¬ Recounts cfg ln x a) (ls, out) acts := by
  induction acts generalizing ls out with
  | nil =>
    cases hr
    exact (and_iff_left trivial).symm
  | cons a acts ih =>
    obtain ⟨⟨ls₁, out₁⟩, ha, hr⟩ := run_cons.mp hr
    obtain ⟨-, rfl⟩ := traced_eq_some.mp ha
    rw [meets_cons_some ha, ih hr, emit_count]
    exact and_assoc

omit [Num F] in
theorem once_iff_nodup {out : List (Nat × Event F)} : OncePerDirection cfg out ↔
    ∀ li < cfg.lines.length, ((toldBy li out).map Event.count).Nodup := by
  refine forall₂_congr fun li _ => ?_
  have hcount : ∀ tid dir, ((toldBy li out).map Event.count).count (tid, dir) =
      ((toldBy li out).filter fun ev => ev.trackId = tid ∧ ev.direction = dir).length := by
    intro tid dir
    rw [List.count_eq_countP, List.countP_map, List.countP_eq_length_filter]
    congr 1
    refine List.filter_congr fun ev _ => ?_
    rw [Bool.eq_iff_iff]
    simp [Event.count]
  rw [List.nodup_iff_count_le_one, Prod.forall]
  simp only [hcount]

/-- Three frames on one side, and then over the line, back, and over it again. -/
def toAndFro : List (AnalyzerCall ℚ ℚ) :=
  [((0 : ℚ), (0.6 : ℚ)), (1, 0.6), (2, 0.6), (3, 0.4), (4, 0.6), (5, 0.4)].map fun (t, y) => frameAt t [trackAt 7 t 0.5 y]

end RetailVision.Vb.LineCross
