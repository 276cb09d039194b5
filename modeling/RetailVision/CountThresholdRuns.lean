/-
What count_threshold keeps of a zone over reconfigurations. `configure` looks
for the zones of the new configuration among those of the old one, so it carries
the state of a zone that both of them list. The implicit zone is in neither
list: its state is lost, and so is that of a zone with its id and polygon that
takes its place. Where the state of a zone is carried, its events never repeat
a type (`carried_iff`).
-/
import RetailVision.CountThreshold
import Mathlib.Data.List.Chain

set_option linter.all false

namespace RetailVision.Vb.CountThreshold

open Lib (after after_append after_snoc after_keyed toldOf toldOf_append)
open RetailVision.Analyzers (Zone)

variable {F D : Type} [BEq F]

omit [BEq F] in
theorem filter_id {zones : List (Zone F)} (hnodup : (zones.map (·.id)).Nodup) {z : Zone F} (hz : z ∈ zones) :
    zones.filter (·.id = z.id) = [z] := by
  induction zones with
  | nil => cases hz
  | cons y zones ih =>
    rw [List.map_cons, List.nodup_cons] at hnodup
    obtain rfl | hz := List.mem_cons.mp hz
    · have hnone : zones.filter (·.id = z.id) = [] := by
        rw [List.filter_eq_nil_iff]
        intro x hx hid
        exact hnodup.1 (List.mem_map.mpr ⟨x, hx, by simpa using hid⟩)
      rw [List.filter_cons_of_pos (by simp), hnone]
    · have hne : y.id ≠ z.id := fun heq => hnodup.1 (List.mem_map.mpr ⟨z, hz, heq.symm⟩)
      rw [List.filter_cons_of_neg (by simpa using hne), ih hnodup.2 hz]

section

variable [Num D]

/-! ## `configure` -/

variable {s : State F D} {c : Cfg F D} {z : Zone F} {zones : List (Zone F)} {keep : String → Option (Debounce Level D)}

omit [Num D] in
theorem keep_other {id : String} (h : z.id ≠ id) : s.keep keep z id = keep id := by
  cases hk : s.kept z with
  | none => simp only [State.keep, hk]
  | some st =>
    simp only [State.keep, hk]
    exact Function.update_of_ne (Ne.symm h) _ _

omit [Num D] in
theorem foldl_keep_other {id : String} (h : id ∉ zones.map (·.id)) : zones.foldl s.keep keep id = keep id := by
  induction zones generalizing keep with
  | nil => rfl
  | cons z zones ih =>
    rw [List.map_cons, List.mem_cons, not_or] at h
    rw [List.foldl_cons, ih h.2, keep_other (Ne.symm h.1)]

omit [Num D] in
/-- Of a zone of the new configuration is kept what `kept` says. -/
theorem foldl_keep (hnodup : (zones.map (·.id)).Nodup) (hz : z ∈ zones) (hnew : keep z.id = none) :
    zones.foldl s.keep keep z.id = s.kept z := by
  induction zones generalizing keep with
  | nil => cases hz
  | cons y zones ih =>
    rw [List.map_cons, List.nodup_cons] at hnodup
    rw [List.foldl_cons]
    obtain rfl | hz := List.mem_cons.mp hz
    · rw [foldl_keep_other hnodup.1]
      cases hk : s.kept z with
      | none => simp only [State.keep, hk, hnew]
      | some st => simp only [State.keep, hk, Function.update_self]
    · have hne : y.id ≠ z.id := fun heq => hnodup.1 (List.mem_map.mpr ⟨z, hz, heq.symm⟩)
      exact ih hnodup.2 hz (by rw [keep_other hne, hnew])

omit [Num D] in
theorem configure_carries (h : z ∈ s.cfg.zones) (h' : z ∈ c.zones) : (configure s c).zst z.id = s.zst z.id := by
  have hsame : (s.cfg.zones.any fun oz => oz.id == z.id && oz.poly == z.poly) = true :=
    List.any_eq_true.mpr ⟨z, h, by simp [s.cfg.poly_self z h]⟩
  rw [configure]
  exact (foldl_keep c.ids_nodup h' rfl).trans (if_pos hsame)

variable [Num F]

omit [Num D] in
theorem effective_nodup (cfg : Cfg F D) : (cfg.effectiveZones.map (·.id)).Nodup := by
  rw [Cfg.effectiveZones]
  split
  · exact cfg.ids_nodup
  · exact List.nodup_singleton _

omit [Num D] in
/-- A zone that is effective and not listed is the implicit one. -/
theorem zones_nil_of_implicit {cfg : Cfg F D} (hz : z ∈ cfg.effectiveZones) (h : z ∉ cfg.zones) : cfg.zones = [] := by
  rw [Cfg.effectiveZones] at hz
  split at hz
  · exact absurd hz h
  · next hempty => simpa using hempty

omit [Num D] in
theorem configure_resets (hz : z ∈ s.cfg.effectiveZones) (hz' : z ∈ c.effectiveZones) (h : ¬ (z ∈ s.cfg.zones ∧ z ∈ c.zones)) :
    (configure s c).zst z.id = none := by
  by_cases hnew : z ∈ c.zones
  · have hold : s.cfg.zones = [] := zones_nil_of_implicit hz fun hin => h ⟨hin, hnew⟩
    have hkept : s.kept z = none := by simp [State.kept, hold]
    rw [configure]
    exact (foldl_keep c.ids_nodup hnew rfl).trans hkept
  · rw [configure, zones_nil_of_implicit hz' hnew]
    rfl

/-- The state of the zone is carried over this `configure`. -/
def Carried (z : Zone F) (s : State F D) (c : Cfg F D) : Prop := (configure s c).deb z.id = s.deb z.id

/-- Both configurations list the zone, or there is nothing to lose. -/
def Listed (z : Zone F) (s : State F D) (c : Cfg F D) : Prop := (z ∈ s.cfg.zones ∧ z ∈ c.zones) ∨ s.deb z.id = .new .normal

theorem carried_iff_listed (hz : z ∈ s.cfg.effectiveZones) (hz' : z ∈ c.effectiveZones) : Carried z s c ↔ Listed z s c := by
  by_cases h : z ∈ s.cfg.zones ∧ z ∈ c.zones
  · exact iff_of_true (by rw [Carried, State.deb, State.deb, configure_carries h.1 h.2]) (.inl h)
  · have hreset : (configure s c).deb z.id = .new .normal := by
      rw [State.deb, configure_resets hz hz' h]
      rfl
    rw [Carried, Listed, hreset]
    constructor
    · intro heq
      exact .inr heq.symm
    · intro hlisted
      exact (hlisted.resolve_left h).symm

/-! ## `on_frame` -/

def Level.type : Level → EventType
  | .over => .countOver
  | .under => .countUnder
  | .normal => .countNormal

theorem type_injective : Function.Injective Level.type := by
  intro a b h
  cases a <;> cases b <;> first | rfl | cases h

omit [Num D] [Num F] in
@[simp] theorem eventOf_type (cfg : Cfg F D) (count : Int) (l : Level) : (eventOf cfg count l).type = l.type := by
  cases l <;> rfl

/-- **A zone in a frame** is judged by its own debouncer. -/
theorem onFrame_zone (hz : z ∈ s.cfg.effectiveZones) (m : FrameMeta F D) (tracks : List (Track F D)) : ∃ raw,
    let r := (s.deb z.id).step raw m.tMonoS s.cfg.holdS
    (onFrame s m tracks).1.deb z.id = r.1 ∧
      (toldOf z.id (onFrame s m tracks).2).map (·.type) = r.2.toList.map fun c => c.2.type := by
  obtain ⟨hstate, hout⟩ := after_keyed (fun _ => judge s.cfg m.tMonoS (anchors s.cfg m tracks)) Zone.id z.id (s.zst, [])
    s.cfg.effectiveZones
  rw [filter_id (effective_nodup s.cfg) hz] at hstate hout
  refine ⟨level s.cfg ((anchors s.cfg m tracks).filter (Motion.pointInPolygon · z.poly)).length, ?_, ?_⟩
  · rw [State.deb, onFrame]
    simp only [hstate]
    rfl
  · have htold : toldOf z.id (onFrame s m tracks).2 =
        (judge s.cfg m.tMonoS (anchors s.cfg m tracks) (s.zst z.id) z).2 := hout
    rw [htold, judge]
    simp [State.deb]

/-! ## Runs -/

omit [Num D] in
/-- The zone is effective in every configuration that is put in place. -/
def Throughout (z : Zone F) (seg : List (Call F D)) : Prop := ∀ c, Call.configure c ∈ seg → z ∈ c.effectiveZones

/-- Every `configure` of a run from `s` is as `P` says. -/
def EveryConfigure (P : State F D → Cfg F D → Prop) (s : State F D) (seg : List (Call F D)) : Prop :=
  ∀ pre c post, seg = pre ++ .configure c :: post → P (run s pre).1 c

/-- The types of the events of a zone. -/
def typesOf (z : Zone F) (s : State F D) (seg : List (Call F D)) : List EventType := (toldOf z.id (run s seg).2).map (·.type)

/-- No event of the zone is of the type of the one before it. -/
def NoneTwice (z : Zone F) (s : State F D) (seg : List (Call F D)) : Prop := (typesOf z s seg).IsChain (· ≠ ·)

variable {seg : List (Call F D)} {call : Call F D} {P Q : State F D → Cfg F D → Prop}

theorem run_snoc : run s (seg ++ [call]) = ((step (run s seg).1 call).1, (run s seg).2 ++ (step (run s seg).1 call).2) := after_snoc

theorem EveryConfigure.init (h : EveryConfigure P s (seg ++ [call])) : EveryConfigure P s seg := fun pre c post heq =>
  h pre c (post ++ [call]) (by rw [heq, List.append_assoc, List.cons_append])

omit [Num D] in
theorem Throughout.init (h : Throughout z (seg ++ [call])) : Throughout z seg := fun c hc => h c (List.mem_append_left _ hc)

theorem effective_run (hz : z ∈ s.cfg.effectiveZones) (h : Throughout z seg) : z ∈ (run s seg).1.cfg.effectiveZones := by
  induction seg using List.reverseRecOn with
  | nil => exact hz
  | append_singleton seg call ih =>
    rw [run_snoc]
    cases call with
    | onFrame m tracks => exact ih h.init
    | configure c => exact h c (by simp)

theorem everyConfigure_congr (hz : z ∈ s.cfg.effectiveZones) (h : Throughout z seg)
    (hpq : ∀ s c, z ∈ s.cfg.effectiveZones → z ∈ c.effectiveZones → (P s c ↔ Q s c)) :
    EveryConfigure P s seg ↔ EveryConfigure Q s seg := by
  have heffective : ∀ pre c post, seg = pre ++ .configure c :: post →
      z ∈ (run s pre).1.cfg.effectiveZones ∧ z ∈ c.effectiveZones := by
    intro pre c post heq
    exact ⟨effective_run hz fun c' hc' => h c' (by simp [heq, hc']), h c (by simp [heq])⟩
  constructor
  · intro hp pre c post heq
    obtain ⟨hold, hnew⟩ := heffective pre c post heq
    exact (hpq _ _ hold hnew).mp (hp pre c post heq)
  · intro hq pre c post heq
    obtain ⟨hold, hnew⟩ := heffective pre c post heq
    exact (hpq _ _ hold hnew).mpr (hq pre c post heq)

/-- The events of a zone whose state is carried are of the types that its
debouncer has been in. -/
theorem types_run (hz : z ∈ s.cfg.effectiveZones) (h : Throughout z seg) (hcarried : EveryConfigure (Carried z) s seg) :
    ((s.deb z.id).state.type :: typesOf z s seg).IsChain (· ≠ ·) ∧
      ((s.deb z.id).state.type :: typesOf z s seg).getLast? = some ((run s seg).1.deb z.id).state.type := by
  induction seg using List.reverseRecOn with
  | nil => exact ⟨.singleton _, rfl⟩
  | append_singleton seg call ih =>
    obtain ⟨hchain, hlast⟩ := ih h.init hcarried.init
    have htypes : typesOf z s (seg ++ [call]) =
        typesOf z s seg ++ (toldOf z.id (step (run s seg).1 call).2).map (·.type) := by
      simp [typesOf, run_snoc]
    rw [htypes, ← List.cons_append, run_snoc]
    cases call with
    | configure c =>
      have hsame : Carried z (run s seg).1 c := hcarried seg c [] rfl
      have hnothing : (toldOf z.id (step (run s seg).1 (.configure c)).2).map (·.type) = [] := rfl
      rw [hnothing, List.append_nil]
      exact ⟨hchain, hlast.trans (by rw [← hsame]; rfl)⟩
    | onFrame m tracks =>
      obtain ⟨raw, hdeb, hout⟩ := onFrame_zone (effective_run hz h.init) m tracks
      rw [step, hout, hdeb]
      cases hc : (((run s seg).1.deb z.id).step raw m.tMonoS (run s seg).1.cfg.holdS).2 with
      | none =>
        rw [Debounce.step_keeps hc]
        simpa using ⟨hchain, hlast⟩
      | some c =>
        obtain ⟨rfl, hne, hstate⟩ := Debounce.step_commits hc
        rw [hstate]
        refine ⟨List.isChain_append.mpr ⟨hchain, .singleton _, fun a ha b hb => ?_⟩, List.getLast?_concat ..⟩
        rw [hlast] at ha
        cases ha
        cases hb
        exact fun heq => hne (type_injective heq).symm

/-- **A zone that stays effective** keeps its state over every `configure`, and
none of its events repeats the type of the one before, exactly where every
`configure` finds the zone listed in both configurations, or without a state to
lose. -/
theorem carried_iff (before : List (Call F D)) {seg : List (Call F D)} {z : Zone F} :
    let s := (run .init before).1
    z ∈ s.cfg.effectiveZones → Throughout z seg →
      ((EveryConfigure (Carried z) s seg ∧ NoneTwice z s seg) ↔ EveryConfigure (Listed z) s seg) := by
  intro s hz h
  have hiff : EveryConfigure (Carried z) s seg ↔ EveryConfigure (Listed z) s seg :=
    everyConfigure_congr hz h fun s c hold hnew => carried_iff_listed hold hnew
  rw [← hiff]
  constructor
  · intro hall
    exact hall.1
  · intro hcarried
    exact ⟨hcarried, (types_run hz h hcarried).1.tail⟩

end

/-- Not more than so many tracks in the zones, for a second. -/
def atMost (limit : ℚ) (zones : List (Zone ℚ)) (hn : (zones.map (·.id)).Nodup) : Cfg ℚ ℚ where
  zones := zones
  maxCount := some limit
  minCount := none
  holdS := 1
  anchor := "bottom_center"
  classes := []
  ids_nodup := hn
  poly_self := by simp

def lobby : Zone ℚ where
  id := "lobby"
  poly := [(0, 0), (1, 0), (1, 1), (0, 1)]

/-- Two tracks, in a frame. -/
def two (t : ℚ) : Call ℚ ℚ := .onFrame (frameMeta t) [trackAt 7 t 0.4 0.5, trackAt 8 t 0.6 0.5]

/-- The limit is set anew while there are two tracks, one more than allowed. -/
def raised (zones : List (Zone ℚ)) (hn : (zones.map (·.id)).Nodup) : List (Call ℚ ℚ) :=
  [two 1, two 3, .configure (atMost 1 zones hn), two 4, two 6]

theorem carried_iff_lobby :
    let s := (run .init [.configure (atMost 0 [lobby] (by simp))]).1
    EveryConfigure (Carried lobby) s (raised [lobby] (by simp)) ∧ NoneTwice lobby s (raised [lobby] (by simp)) := by
  have hthroughout : Throughout lobby (raised [lobby] (by simp)) := by
    intro c hc
    obtain rfl : c = atMost 1 [lobby] (by simp) := by simpa [raised, two] using hc
    exact List.mem_singleton_self lobby
  refine (carried_iff [.configure (atMost 0 [lobby] (by simp))] (List.mem_singleton_self lobby) hthroughout).mpr ?_
  intro pre c post heq
  rcases pre with _ | ⟨_, _ | ⟨_, _ | ⟨_, pre⟩⟩⟩
  · cases heq
  · cases heq
  · cases heq
    exact .inl ⟨List.mem_singleton_self lobby, List.mem_singleton_self lobby⟩
  · have hin : Call.configure c ∈ [two 4, two 6] := by
      simp only [raised, List.cons_append, List.cons.injEq] at heq
      rw [heq.2.2.2]
      simp
    simp [two] at hin

/-- Of the implicit zone it is told twice in a row that the limit is passed. -/
theorem not_carried :
    let s := (run .init [.configure (atMost 0 [] (by simp))]).1
    frameZone ∈ s.cfg.effectiveZones ∧ Throughout frameZone (raised [] (by simp)) ∧
      typesOf frameZone s (raised [] (by simp)) = [.countOver, .countOver] ∧
      ¬ (EveryConfigure (Carried frameZone) s (raised [] (by simp)) ∧ NoneTwice frameZone s (raised [] (by simp))) := by
  have htypes : typesOf frameZone (run .init [.configure (atMost 0 [] (by simp))]).1 (raised [] (by simp)) =
      [.countOver, .countOver] := by decide +kernel
  refine ⟨List.mem_singleton_self _, fun c hc => ?_, htypes, fun h => ?_⟩
  · obtain rfl : c = atMost 1 [] (by simp) := by simpa [raised, two] using hc
    exact List.mem_singleton_self _
  · have hchain := h.2
    rw [NoneTwice, htypes] at hchain
    simp at hchain

end RetailVision.Vb.CountThreshold
