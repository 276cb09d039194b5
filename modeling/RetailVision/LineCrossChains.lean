/-
What the line_cross analyzer does when a track is taken for a new one. Of each
life of a track id, from its first frameAt to its removal, a record is kept
beside the line: the life it inherited from, the side it is on, the crossings
it was counted for. An entry of the lost tracks is that of the life that left
it. Along the lives that inherit from one another the directions alternate
(`chains_lawful`), in every run in which only new tracks inherit.

A track is new when its age is 0. The age is a `uint32_t`, so that a track that
has been observed 2^32 times is new again, and may inherit in the middle of its
life (`chains_not_lawful`).
-/
import RetailVision.LineCross
import RetailVision.Lib.Parallel
import Mathlib.Data.List.Chain

set_option linter.all false

namespace RetailVision.Vb.LineCross

open Lib (toldBy traced traced_eq_some run_cons Meets meets_cons_some forall₂_imp_mem forall₂_right forall₂_getElem? forall₂_eraseIdx)
open RetailVision.Analyzers (Line LineCrossCfg)
open Loops (acts acts_append)

/-- A crossing that was counted. -/
structure Crossing (F : Type) where
  /-- the side the track was on, and the side it is seen on -/
  before : Int
  after : Int
  /-- it had not been on a side of its own before -/
  first : Bool
  event : Event F

/-- What a life takes over: the life it inherits from, and what was counted along the chain. -/
structure Heritage where
  lost : Nat
  directions : List Direction

structure Life (F : Type) where
  tid : UInt32
  heritage : Option Heritage
  /-- the last side outside the band, its own or inherited; `0` for none -/
  side : Int
  /-- it has been on a side of its own -/
  settled : Bool
  crossings : List (Crossing F)

/-- The lives on a line, numbered in the order in which they began. -/
structure Record (F : Type) where
  lives : Nat → Life F
  born : Nat
  live : UInt32 → Option Nat
  /-- whose the lost tracks are -/
  lost : List Nat

variable {F D : Type}

def Life.new (F : Type) (tid : UInt32) : Life F := ⟨tid, none, 0, false, []⟩

/-- What was counted along the chain that ends here. -/
def Life.chain (life : Life F) : List Direction :=
  (match life.heritage with
    | some h => h.directions
    | none => []) ++ life.crossings.map (·.event.direction)

/-- The track is seen on a side, or in the band. -/
def Life.saw (life : Life F) (side : Int) (ev : Option (Event F)) : Life F where
  tid := life.tid
  heritage := life.heritage
  side := if side = 0 then life.side else side
  settled := life.settled || side ≠ 0
  crossings := life.crossings ++ (ev.map fun ev => { before := life.side, after := side, first := !life.settled, event := ev }).toList

namespace Record

variable (r : Record F)

def empty (F : Type) : Record F := ⟨fun _ => .new F 0, 0, fun _ => none, []⟩

def put (i : Nat) (life : Life F) : Record F := { r with lives := Function.update r.lives i life }

/-- The life of a track, which begins if there is none. -/
def begin (tid : UInt32) : Record F × Nat :=
  match r.live tid with
  | some i => (r, i)
  | none =>
    ({ lives := Function.update r.lives r.born (.new F tid)
       born := r.born + 1
       live := Function.update r.live tid (some r.born)
       lost := r.lost }, r.born)

/-- The life `i` inherits the entry `k` of the lost tracks. -/
def inherit (i k : Nat) : Record F :=
  match r.lost[k]? with
  | some j =>
    let heir := { r.lives i with heritage := some ⟨j, (r.lives j).chain⟩, side := (r.lives j).side }
    { r.put i heir with lost := r.lost.eraseIdx k }
  | none => r

/-- A life ends, leaves an entry or not, and `kept` of the entries stay. -/
def ended (tid : UInt32) (leaves : Bool) (kept : Nat) : Record F :=
  match r.live tid with
  | some i =>
    let lost := if leaves then r.lost ++ [i] else r.lost
    { r with live := Function.update r.live tid none, lost := lost.drop (lost.length - kept) }
  | none => r

end Record

section

variable [Num F] [Num D] [Casts F D] (cfg : LineCrossCfg F) (ln : Line F)

/-- What is kept for a track when it comes to a line. -/
def LineState.found (ls : LineState F D) (tid : UInt32) : PerTrack F := (ls.st tid).getD (.new F)

/-- The record of what one line does. -/
def record (ls : LineState F D) (a : Act F D) (r : Record F) : Record F :=
  match a with
  | .observe m tr =>
    let p := anchorOf m tr
    let (r, i) := r.begin tr.trackId
    let r := match heir cfg ls (ls.found tr.trackId) p m.tMonoS with
      | some k => r.inherit i k
      | none => r
    r.put i ((r.lives i).saw (sideOf cfg ln p) (step cfg ln ls tr.trackId p m.tMonoS tr).2)
  | .remove tid t =>
    match ls.st tid with
    | some s => r.ended tid (s.counted ≠ 0) (remove cfg ls tid t).lost.length
    | none => r

/-- A track that is not new to the line inherits. -/
def Renews (ls : LineState F D) : Act F D → Prop
  | .observe m tr => (ls.st tr.trackId).isSome ∧ (heir cfg ls (ls.found tr.trackId) (anchorOf m tr) m.tMonoS).isSome
  | .remove _ _ => False

end

instance [Num F] [Num D] [Casts F D] (cfg : LineCrossCfg F) (ls : LineState F D) (a : Act F D) : Decidable (Renews cfg ls a) :=
  match a with
  | .observe _ _ => inferInstanceAs (Decidable (_ ∧ _))
  | .remove _ _ => inferInstanceAs (Decidable False)

/-- What is said of one life. -/
structure Life.Lawful (life : Life F) : Prop where
  alternates : life.chain.IsChain (· ≠ ·)
  opposite : ∀ c ∈ life.crossings, c.after ≠ 0 ∧ c.before = -c.after
  not_first : ∀ c ∈ life.crossings, c.first = true → life.heritage.isSome

structure Record.Lawful (r : Record F) : Prop where
  lives : ∀ i, (r.lives i).Lawful
  /-- a chain goes on from the life that left the entry -/
  chain : ∀ i h, (r.lives i).heritage = some h → h.directions = (r.lives h.lost).chain
  /-- an entry has one heir -/
  once : ∀ i j h h', (r.lives i).heritage = some h → (r.lives j).heritage = some h' → h.lost = h'.lost → i = j

/-! ## What the line remembers of a life -/

/-- What the line has kept of a life is what there is to it. -/
structure Life.Stands (life : Life F) (counted side : Int) : Prop where
  side_eq : side = life.side
  small : life.side.natAbs ≤ 1
  counted_eq : counted = (life.chain.getLast?.map Direction.sign).getD 0
  has_side : life.side ≠ 0 → life.settled = true ∨ life.heritage.isSome

theorem Life.lawful_new (tid : UInt32) : (Life.new F tid).Lawful where
  alternates := List.isChain_nil
  opposite := fun c hc => by cases hc
  not_first := fun c hc => by cases hc

theorem Life.stands_new (tid : UInt32) : (Life.new F tid).Stands 0 0 where
  side_eq := rfl
  small := Nat.zero_le 1
  counted_eq := rfl
  has_side := fun h => absurd rfl h

section

variable {life : Life F} {counted side : Int} {ev : Event F}

/-- A life that is seen, and not counted. -/
theorem Life.Stands.saw (h : life.Stands counted side) {cur : Int} (hcur : cur.natAbs ≤ 1) :
    (life.saw cur none).Stands counted (if cur = 0 then side else cur) where
  side_eq := by rw [h.side_eq]; rfl
  small := by
    simp only [Life.saw]
    split
    · exact h.small
    · exact hcur
  counted_eq := by simpa [Life.saw, Life.chain] using h.counted_eq
  has_side := by
    simp only [Life.saw]
    by_cases hzero : cur = 0
    · simpa [hzero] using h.has_side
    · simp [hzero]

theorem Life.Lawful.saw (h : life.Lawful) (cur : Int) : (life.saw cur none).Lawful where
  alternates := by simpa [Life.saw, Life.chain] using h.alternates
  opposite := by simpa [Life.saw] using h.opposite
  not_first := by simpa [Life.saw] using h.not_first

theorem Life.chain_saw (life : Life F) (cur : Int) (ev : Event F) :
    (life.saw cur (some ev)).chain = life.chain ++ [ev.direction] := by
  simp [Life.saw, Life.chain]

/-- A life that is counted. -/
theorem Life.Stands.counts {cur : Int} (hcur : cur.natAbs ≤ 1) (hne : cur ≠ 0) :
    (life.saw cur (some ev)).Stands ev.direction.sign cur where
  side_eq := by simp [Life.saw, hne]
  small := by simpa [Life.saw, hne] using hcur
  counted_eq := by simp [Life.chain_saw]
  has_side := by simp [Life.saw, hne]

theorem Direction.sign_inj {d d' : Direction} (h : d.sign = d'.sign) : d = d' := by
  cases d <;> cases d' <;> first | rfl | exact absurd h (by decide)

theorem Life.Lawful.counts (h : life.Lawful) (hs : life.Stands counted side) {cur : Int} (hcur : cur.natAbs ≤ 1)
    (hne : cur ≠ 0) (hside : side ≠ 0) (hchange : cur ≠ side) (hdir : counted ≠ ev.direction.sign) :
    (life.saw cur (some ev)).Lawful where
  alternates := by
    rw [Life.chain_saw]
    refine h.alternates.append (List.isChain_singleton _) fun d hd d' hd' he => hdir ?_
    cases hd'
    rw [hs.counted_eq, Option.mem_def.mp hd, he]
    rfl
  opposite := by
    intro c hc
    simp only [Life.saw, Option.map_some, Option.toList_some, List.mem_append, List.mem_singleton] at hc
    obtain hc | rfl := hc
    · exact h.opposite c hc
    · have := hs.small
      have := hs.side_eq
      refine ⟨hne, ?_⟩
      simp only
      omega
  not_first := by
    intro c hc hfirst
    simp only [Life.saw, Option.map_some, Option.toList_some, List.mem_append, List.mem_singleton] at hc
    obtain hc | rfl := hc
    · exact h.not_first c hc hfirst
    · obtain hsettled | hheritage := hs.has_side (hs.side_eq ▸ hside)
      · simp [hsettled] at hfirst
      · exact hheritage

end

/-! ## What the record says of the line -/

/-- The life of a track that the line keeps something for. -/
def Lives (r : Record F) (tid : UInt32) (s : PerTrack F) (i : Nat) : Prop :=
  i < r.born ∧ (r.lives i).tid = tid ∧ (r.lives i).Stands s.counted s.side

/-- The life that left an entry. -/
def Left (r : Record F) (l : Lost F D) (i : Nat) : Prop := i < r.born ∧ (r.lives i).Stands l.counted l.side

structure Inv (ls : LineState F D) (r : Record F) : Prop extends r.Lawful where
  live : ∀ tid s, ls.st tid = some s → ∃ i, r.live tid = some i ∧ Lives r tid s i
  dead : ∀ tid, ls.st tid = none → r.live tid = none
  left : List.Forall₂ (Left r) ls.lost r.lost
  nodup : r.lost.Nodup
  lost_not_live : ∀ tid i, r.live tid = some i → i ∉ r.lost
  /-- a life that was inherited from is over -/
  ended_before : ∀ i h, (r.lives i).heritage = some h → h.lost < r.born ∧ h.lost ∉ r.lost ∧ ∀ tid, r.live tid ≠ some h.lost

/-- Nobody has inherited from the life yet, and it is over. -/
structure Free (r : Record F) (hk : Heritage) : Prop where
  born : hk.lost < r.born
  not_lost : hk.lost ∉ r.lost
  not_live : ∀ tid, r.live tid ≠ some hk.lost
  directions : hk.directions = (r.lives hk.lost).chain
  no_heir : ∀ k hk', (r.lives k).heritage = some hk' → hk'.lost ≠ hk.lost

theorem inv_empty : Inv (.empty F D) (.empty F) where
  lives := fun _ => Life.lawful_new 0
  chain := fun i h he => by cases he
  once := fun i j h h' he => by cases he
  live := fun _ _ hs => by cases hs
  dead := fun _ _ => rfl
  left := .nil
  nodup := List.nodup_nil
  lost_not_live := fun tid i hi => by cases hi
  ended_before := fun i h he => by cases he

namespace Inv

variable {ls : LineState F D} {r : Record F} {tid tid' : UInt32} {s : PerTrack F} {i j k : Nat}

theorem lives_of (h : Inv ls r) (hi : r.live tid = some i) : ∃ s, ls.st tid = some s ∧ Lives r tid s i := by
  cases hs : ls.st tid with
  | none => rw [h.dead tid hs] at hi; cases hi
  | some s =>
    obtain ⟨j, hj, hlives⟩ := h.live tid s hs
    rw [hi] at hj
    cases hj
    exact ⟨s, rfl, hlives⟩

theorem born_of (h : Inv ls r) (hi : r.live tid = some i) : i < r.born ∧ (r.lives i).tid = tid := by
  obtain ⟨s, -, hborn, htid, -⟩ := h.lives_of hi
  exact ⟨hborn, htid⟩

/-- A life is that of one track. -/
theorem live_inj (h : Inv ls r) (hi : r.live tid = some i) (hi' : r.live tid' = some i) : tid = tid' :=
  (h.born_of hi).2.symm.trans (h.born_of hi').2

/-- A life goes on, and may inherit. -/
theorem put (h : Inv ls r) (hi : r.live tid = some i) {life : Life F} (htid : life.tid = tid)
    (hheritage : ∀ hk, life.heritage = some hk → (r.lives i).heritage = some hk ∨ Free r hk)
    (hlawful : life.Lawful) (hstands : life.Stands s.counted s.side) :
    Inv { ls with st := Function.update ls.st tid (some s) } (r.put i life) := by
  have hborn := h.born_of hi
  have hother : ∀ k, k ≠ i → (r.put i life).lives k = r.lives k := fun k hk => Function.update_of_ne hk _ _
  have hpast : ∀ k hk, ((r.put i life).lives k).heritage = some hk →
      (r.lives k).heritage = some hk ∨ k = i ∧ Free r hk := by
    intro k hk he
    by_cases hki : k = i
    · subst hki
      simp only [Record.put, Function.update_self] at he
      exact (hheritage hk he).imp_right fun hfree => ⟨rfl, hfree⟩
    · rw [hother k hki] at he
      exact .inl he
  have hover : ∀ k hk, ((r.put i life).lives k).heritage = some hk →
      hk.lost < r.born ∧ hk.lost ∉ r.lost ∧ ∀ tid, r.live tid ≠ some hk.lost := by
    intro k hk he
    obtain he | ⟨-, hfree⟩ := hpast k hk he
    · exact h.ended_before k hk he
    · exact ⟨hfree.born, hfree.not_lost, hfree.not_live⟩
  refine {
    lives := fun k => ?_, chain := fun k hk he => ?_, once := fun k l hk hl he he' heq => ?_, live := fun tid' s' hs' => ?_,
    dead := fun tid' hs' => ?_, left := ?_, nodup := h.nodup, lost_not_live := h.lost_not_live, ended_before := hover }
  · simp only [Record.put, Function.update_apply]
    split
    · exact hlawful
    · exact h.lives k
  · have hne : hk.lost ≠ i := fun heq => (hover k hk he).2.2 tid (by rw [heq]; exact hi)
    rw [hother _ hne]
    obtain he | ⟨-, hfree⟩ := hpast k hk he
    · exact h.chain k hk he
    · exact hfree.directions
  · obtain he | ⟨hki, hfree⟩ := hpast k hk he
    · obtain he' | ⟨-, hfree'⟩ := hpast l hl he'
      · exact h.once k l hk hl he he' heq
      · exact absurd heq (hfree'.no_heir k hk he)
    · obtain he' | ⟨hli, -⟩ := hpast l hl he'
      · exact absurd heq.symm (hfree.no_heir l hl he')
      · rw [hki, hli]
  · by_cases htid' : tid' = tid
    · subst htid'
      simp only [Function.update_self, Option.some.injEq] at hs'
      subst hs'
      refine ⟨i, hi, hborn.1, ?_, ?_⟩
      · simp [Record.put, htid]
      · simpa [Record.put] using hstands
    · simp only [Function.update_of_ne htid'] at hs'
      obtain ⟨j, hj, hlives⟩ := h.live tid' s' hs'
      have hne : j ≠ i := fun heq => htid' (h.live_inj hj (heq ▸ hi))
      refine ⟨j, hj, hlives.1, ?_⟩
      rw [hother j hne]
      exact hlives.2
  · have hne : tid' ≠ tid := fun heq => by simp [heq] at hs'
    simp only [Function.update_of_ne hne] at hs'
    exact h.dead tid' hs'
  · refine forall₂_imp_mem (fun l j hj hleft => ⟨hleft.1, ?_⟩) h.left
    have hne : j ≠ i := fun heq => h.lost_not_live tid i hi (heq ▸ hj)
    rw [hother j hne]
    exact hleft.2

theorem lost_born (h : Inv ls r) (hj : j ∈ r.lost) : j < r.born := by
  obtain ⟨l, -, hleft⟩ := forall₂_right h.left j hj
  exact hleft.1

/-- A life begins, if there is none. -/
theorem begin [Num F] (h : Inv ls r) (tid : UInt32) :
    Inv { ls with st := Function.update ls.st tid (some (ls.found tid)) } (r.begin tid).1 ∧
      (r.begin tid).1.live tid = some (r.begin tid).2 ∧
      (ls.st tid = none → (r.begin tid).1.lives (r.begin tid).2 = .new F tid) ∧ (r.begin tid).1.lost = r.lost := by
  cases hs : ls.st tid with
  | some s =>
    obtain ⟨i, hi, -⟩ := h.live tid s hs
    have hfound : Function.update ls.st tid (some (ls.found tid)) = ls.st := by
      rw [LineState.found, hs, Option.getD_some, ← hs, Function.update_eq_self]
    have hbegin : r.begin tid = (r, i) := by simp only [Record.begin, hi]
    rw [hfound, hbegin]
    exact ⟨h, hi, fun hn => (by cases hn), rfl⟩
  | none =>
    have hdead := h.dead tid hs
    have hbegin : r.begin tid = ({
        lives := Function.update r.lives r.born (.new F tid)
        born := r.born + 1
        live := Function.update r.live tid (some r.born)
        lost := r.lost }, r.born) := by simp only [Record.begin, hdead]
    have hfound : ls.found tid = .new F := by rw [LineState.found, hs, Option.getD_none]
    rw [hbegin, hfound]
    refine ⟨?_, Function.update_self _ _ _, fun _ => Function.update_self _ _ _, rfl⟩
    have hold : ∀ k, k < r.born → Function.update r.lives r.born (Life.new F tid) k = r.lives k :=
      fun k hk => Function.update_of_ne (Nat.ne_of_lt hk) _ _
    have hheritage : ∀ k hk, (Function.update r.lives r.born (Life.new F tid) k).heritage = some hk →
        (r.lives k).heritage = some hk := by
      intro k hk he
      rw [Function.update_apply] at he
      split at he
      · cases he
      · exact he
    refine {
      lives := fun k => ?_, chain := fun k hk he => ?_
      once := fun k l hk hl he he' => h.once k l hk hl (hheritage k hk he) (hheritage l hl he')
      live := fun tid' s' hs' => ?_, dead := fun tid' hs' => ?_, left := ?_, nodup := h.nodup
      lost_not_live := fun tid' i hi => ?_, ended_before := fun k hk he => ?_ }
    · simp only [Function.update_apply]
      split
      · exact Life.lawful_new tid
      · exact h.lives k
    · have he := hheritage k hk he
      simp only [hold _ (h.ended_before k hk he).1]
      exact h.chain k hk he
    · by_cases htid' : tid' = tid
      · subst htid'
        simp only [Function.update_self, Option.some.injEq] at hs' ⊢
        subst hs'
        refine ⟨r.born, rfl, Nat.lt_succ_self _, ?_⟩
        simp only [Function.update_self]
        exact ⟨rfl, Life.stands_new tid'⟩
      · simp only [Function.update_of_ne htid'] at hs' ⊢
        obtain ⟨i, hi, hborn, hlives⟩ := h.live tid' s' hs'
        refine ⟨i, hi, Nat.lt_succ_of_lt hborn, ?_⟩
        simp only [hold i hborn]
        exact hlives
    · have hne : tid' ≠ tid := fun heq => by simp [heq] at hs'
      simp only [Function.update_of_ne hne] at hs' ⊢
      exact h.dead tid' hs'
    · refine forall₂_imp_mem (fun l j hj hleft => ⟨Nat.lt_succ_of_lt hleft.1, ?_⟩) h.left
      simp only [hold j hleft.1]
      exact hleft.2
    · simp only [Function.update_apply] at hi
      split at hi
      · cases hi
        exact fun hj => absurd (h.lost_born hj) (Nat.lt_irrefl _)
      · exact h.lost_not_live tid' i hi
    · have ⟨hborn, hlost, hlive⟩ := h.ended_before k hk (hheritage k hk he)
      refine ⟨Nat.lt_succ_of_lt hborn, hlost, fun tid' hi => ?_⟩
      simp only [Function.update_apply] at hi
      split at hi
      · exact absurd (Option.some.inj hi) (Nat.ne_of_gt hborn)
      · exact hlive tid' hi

/-- Entries are forgotten. -/
theorem forget (h : Inv ls r) {lost : List (Lost F D)} {lost' : List Nat} (hleft : List.Forall₂ (Left r) lost lost')
    (hsub : lost'.Sublist r.lost) : Inv { ls with lost := lost } { r with lost := lost' } where
  lives := h.lives
  chain := h.chain
  once := h.once
  live := h.live
  dead := h.dead
  left := hleft
  nodup := h.nodup.sublist hsub
  lost_not_live := fun tid i hi hm => h.lost_not_live tid i hi (hsub.subset hm)
  ended_before := by
    intro i hk he
    have ⟨hborn, hlost, hlive⟩ := h.ended_before i hk he
    exact ⟨hborn, fun hm => hlost (hsub.subset hm), hlive⟩

/-- A life that has just begun inherits an entry. -/
theorem inherit (h : Inv ls r) (hi : r.live tid = some i) (hnew : r.lives i = .new F tid) {l : Lost F D}
    (hl : ls.lost[k]? = some l) (s : PerTrack F) (hcounted : s.counted = l.counted) (hside : s.side = l.side) :
    Inv { st := Function.update ls.st tid (some s), lost := ls.lost.eraseIdx k } (r.inherit i k) ∧
      (r.inherit i k).live tid = some i := by
  obtain ⟨j, hj, hborn, hstands⟩ := forall₂_getElem? h.left hl
  have hmem : j ∈ r.lost := List.mem_of_getElem? hj
  have hforget := h.forget (forall₂_eraseIdx h.left k) (List.eraseIdx_sublist r.lost k)
  have hfree : Free { r with lost := r.lost.eraseIdx k } ⟨j, (r.lives j).chain⟩ := {
    born := hborn
    not_lost := by
      intro hm
      obtain ⟨k', hne, hk'⟩ := List.mem_eraseIdx_iff_getElem?.mp hm
      exact hne ((List.getElem?_inj (List.getElem?_eq_some_iff.mp hk').1 h.nodup).mp (hk'.trans hj.symm))
    not_live := fun tid' hi' => h.lost_not_live tid' j hi' hmem
    directions := rfl
    no_heir := fun m hk he heq => (h.ended_before m hk he).2.1 (by rw [heq]; exact hmem) }
  have hinherit : r.inherit i k = { r with lost := r.lost.eraseIdx k }.put i
      { Life.new F tid with heritage := some ⟨j, (r.lives j).chain⟩, side := (r.lives j).side } := by
    simp only [Record.inherit, hj, hnew]
    rfl
  rw [hinherit]
  refine ⟨hforget.put hi rfl (fun hk he => .inr ?_) ?_ ?_, hi⟩
  · cases he
    exact hfree
  · refine { alternates := ?_, opposite := fun c hc => (by cases hc), not_first := fun c hc => (by cases hc) }
    simpa [Life.chain, Life.new] using (h.lives j).alternates
  · rw [hcounted, hside]
    refine { side_eq := hstands.side_eq, small := hstands.small, counted_eq := ?_, has_side := fun _ => .inr rfl }
    simpa [Life.chain, Life.new] using hstands.counted_eq

/-- A life ends, and leaves an entry if it was counted. -/
theorem leave (h : Inv ls r) (hs : ls.st tid = some s) (hi : r.live tid = some i) {l : Lost F D} (hcounted : l.counted = s.counted)
    (hside : l.side = s.side) (leaves : Bool) :
    Inv { st := Function.update ls.st tid none, lost := if leaves then ls.lost ++ [l] else ls.lost }
      { r with live := Function.update r.live tid none, lost := if leaves then r.lost ++ [i] else r.lost } := by
  have hborn := h.born_of hi
  obtain ⟨s', hs', -, -, hstands⟩ := h.lives_of hi
  rw [hs] at hs'
  cases hs'
  have hlost : ∀ j, j ∈ (if leaves then r.lost ++ [i] else r.lost) → j ∈ r.lost ∨ j = i := by
    intro j hj
    cases leaves with
    | false => exact .inl hj
    | true => simpa using hj
  have hlive : ∀ tid' j, Function.update r.live tid none tid' = some j → r.live tid' = some j ∧ j ≠ i := by
    intro tid' j hj
    rw [Function.update_apply] at hj
    split at hj
    · cases hj
    · next hne => exact ⟨hj, fun heq => hne (h.live_inj hj (heq ▸ hi))⟩
  refine {
    lives := h.lives, chain := h.chain, once := h.once, live := fun tid' s' hs' => ?_, dead := fun tid' hs' => ?_
    left := ?_, nodup := ?_, lost_not_live := fun tid' j hj hm => ?_, ended_before := fun k hk he => ?_ }
  · have hne : tid' ≠ tid := fun heq => by simp [heq] at hs'
    simp only [Function.update_of_ne hne] at hs' ⊢
    exact h.live tid' s' hs'
  · by_cases hne : tid' = tid
    · simp [hne]
    · simp only [Function.update_of_ne hne] at hs' ⊢
      exact h.dead tid' hs'
  · cases leaves with
    | false => exact h.left
    | true =>
      refine List.rel_append h.left (.cons ⟨hborn.1, ?_⟩ .nil)
      rw [hcounted, hside]
      exact hstands
  · cases leaves with
    | false => exact h.nodup
    | true =>
      refine List.nodup_append.mpr ⟨h.nodup, List.nodup_singleton i, fun j hj k hk heq => ?_⟩
      rw [List.mem_singleton.mp hk] at heq
      exact h.lost_not_live tid i hi (heq ▸ hj)
  · obtain ⟨hj, hne⟩ := hlive tid' j hj
    obtain hm | hm := hlost j hm
    · exact h.lost_not_live tid' j hj hm
    · exact hne hm
  · have ⟨hb, hl, hv⟩ := h.ended_before k hk he
    refine ⟨hb, fun hm => ?_, fun tid' hj => hv tid' (hlive tid' _ hj).1⟩
    obtain hm | hm := hlost _ hm
    · exact hl hm
    · exact hv tid (hm ▸ hi)

/-- The track is removed from the line. -/
theorem ended [Num F] [Num D] [Casts F D] {cfg : LineCrossCfg F} {t : D} (h : Inv ls r) (hs : ls.st tid = some s) :
    Inv (remove cfg ls tid t) (r.ended tid (s.counted ≠ 0) (remove cfg ls tid t).lost.length) := by
  obtain ⟨i, hi, -⟩ := h.live tid s hs
  have hleave := @leave F D ls r tid s i h hs hi ⟨t, s.lx, s.ly, s.counted, s.side⟩ rfl rfl (s.counted ≠ 0)
  simp only [decide_eq_true_eq] at hleave
  simp only [remove, hs, Record.ended, hi, decide_eq_true_eq]
  generalize (if s.counted ≠ 0 then ls.lost ++ [⟨t, s.lx, s.ly, s.counted, s.side⟩] else ls.lost) = lost at hleave ⊢
  generalize (if s.counted ≠ 0 then r.lost ++ [i] else r.lost) = lost' at hleave ⊢
  have hsuffix := List.dropWhile_suffix (l := lost) fun l => decide (t - l.t > Casts.toDouble cfg.rebornWindowS)
  generalize lost.dropWhile (fun l => decide (t - l.t > Casts.toDouble cfg.rebornWindowS)) = kept at hsuffix ⊢
  have hlength : lost.length = lost'.length := hleave.left.length_eq
  have hkept := List.forall₂_drop (lost.length - kept.length) hleave.left
  rw [← List.suffix_iff_eq_drop.mp hsuffix] at hkept
  rw [← hlength]
  exact hleave.forget hkept (List.drop_sublist _ _)

/-- A track that is there is seen. -/
theorem saw [Num F] (h : Inv ls r) (hi : r.live tid = some i) {s₀ : PerTrack F} (hs : ls.st tid = some s₀) (s : PerTrack F)
    (hcounted : s.counted = s₀.counted) (hside : s.side = s₀.side) (cfg : LineCrossCfg F) (ln : Line F) (p : F × F) (tr : Track F D) :
    Inv { ls with st := Function.update ls.st tid (some (cross cfg ln s tid p tr).1) }
      (r.put i ((r.lives i).saw (sideOf cfg ln p) (cross cfg ln s tid p tr).2)) := by
  obtain ⟨s', hs', -, htid, hstands⟩ := h.lives_of hi
  rw [hs] at hs'
  cases hs'
  rw [← hcounted, ← hside] at hstands
  have hsmall : (sideOf cfg ln p).natAbs ≤ 1 := by
    unfold sideOf
    split
    · decide
    · split <;> decide
  obtain ⟨hc, hdir, hcross⟩ | ⟨-, hcross⟩ := cross_cases cfg ln s tid p tr
  · rw [hcross]
    refine h.put hi htid (fun hk he => .inl he) ?_ ?_
    · exact (h.lives i).counts hstands hsmall hc.outside hc.had_side hc.changes hdir
    · exact Life.Stands.counts hsmall hc.outside
  · rw [hcross]
    exact h.put hi htid (fun hk he => .inl he) ((h.lives i).saw _) (hstands.saw hsmall)

end Inv

section

variable [Num F] [Num D] [Casts F D] {cfg : LineCrossCfg F} {ln : Line F} {ls : LineState F D} {r : Record F}
  {tid : UInt32} {p : F × F} {now : D} {k : Nat}

theorem observed_new (hheir : heir cfg ls (ls.found tid) p now = none) :
    observed cfg ls tid p now = ({ ls.found tid with age := (ls.found tid).age + 1, lx := p.1, ly := p.2 }, ls.lost) := by
  simp only [observed]
  rw [show heir cfg ls ((ls.st tid).getD (.new F)) p now = none from hheir]
  rfl

theorem observed_heir (hheir : heir cfg ls (ls.found tid) p now = some k) : ∃ l, ls.lost[k]? = some l ∧
    observed cfg ls tid p now =
      ({ ls.found tid with counted := l.counted, side := l.side, age := (ls.found tid).age + 1, lx := p.1, ly := p.2 },
        ls.lost.eraseIdx k) := by
  have hlt : k < ls.lost.length := by
    simp only [heir] at hheir
    split at hheir
    · exact (List.findIdx?_eq_some_iff_getElem.mp hheir).1
    · cases hheir
  have hl := List.getElem?_eq_getElem hlt
  refine ⟨ls.lost[k], hl, ?_⟩
  simp only [observed]
  rw [show heir cfg ls ((ls.st tid).getD (.new F)) p now = some k from hheir]
  simp only [hl]
  rfl

/-- **The record goes on saying what the line remembers**, and stays lawful. -/
theorem Inv.next (h : Inv ls r) {a : Act F D} (hnew : ¬ Renews cfg ls a) :
    Inv (next cfg ln ls a).1 (record cfg ln ls a r) := by
  cases a with
  | remove tid t =>
    simp only [LineCross.next, record]
    cases hs : ls.st tid with
    | none =>
      simp only [LineCross.remove, hs]
      exact h
    | some s => exact h.ended hs
  | observe m tr =>
    obtain ⟨hbegin, hlive, hborn, -⟩ := h.begin tr.trackId
    simp only [LineCross.next, step, record]
    cases hheir : heir cfg ls (ls.found tr.trackId) (anchorOf m tr) m.tMonoS with
    | none =>
      rw [observed_new hheir]
      have hsaw := hbegin.saw hlive (Function.update_self _ _ _)
        { ls.found tr.trackId with age := (ls.found tr.trackId).age + 1, lx := (anchorOf m tr).1, ly := (anchorOf m tr).2 }
        rfl rfl cfg ln (anchorOf m tr) tr
      rw [Function.update_idem] at hsaw
      exact hsaw
    | some k =>
      obtain ⟨l, hl, hobserved⟩ := observed_heir hheir
      rw [hobserved]
      have hnone : ls.st tr.trackId = none := by
        by_contra hne
        exact hnew ⟨Option.isSome_iff_ne_none.mpr hne, by rw [hheir]; rfl⟩
      obtain ⟨hinherit, hlive⟩ := hbegin.inherit hlive (hborn hnone) hl
        { ls.found tr.trackId with counted := l.counted, side := l.side } rfl rfl
      have hsaw := hinherit.saw hlive (Function.update_self _ _ _)
        { ls.found tr.trackId with
          counted := l.counted
          side := l.side
          age := (ls.found tr.trackId).age + 1
          lx := (anchorOf m tr).1
          ly := (anchorOf m tr).2 } rfl rfl cfg ln (anchorOf m tr) tr
      rw [Function.update_idem, Function.update_idem] at hsaw
      exact hsaw

/-! ## Runs -/

/-- Each event is that of a crossing in the record. -/
def Covers (r : Record F) (out : List (Event F)) : Prop := ∀ ev ∈ out, ∃ i < r.born, ∃ c ∈ (r.lives i).crossings, c.event = ev

omit [Num F] [Num D] [Casts F D] in
/-- Where the lives are the same or have been counted for more, the events are still there. -/
theorem Covers.mono {r' : Record F} {out : List (Event F)} (hc : Covers r out) (hborn : r.born ≤ r'.born)
    (h : ∀ i < r.born, ∀ c ∈ (r.lives i).crossings, c ∈ (r'.lives i).crossings) : Covers r' out := by
  intro ev hev
  obtain ⟨i, hi, c, hcr, he⟩ := hc ev hev
  exact ⟨i, Nat.lt_of_lt_of_le hi hborn, c, h i hi c hcr, he⟩

omit [Num F] [Num D] [Casts F D] in
theorem Record.inherit_crossings (r : Record F) (i k j : Nat) : ((r.inherit i k).lives j).crossings = (r.lives j).crossings := by
  simp only [Record.inherit]
  split
  · simp only [Record.put, Function.update_apply]
    split
    · next heq => rw [heq]
    · rfl
  · rfl

omit [Num F] [Num D] [Casts F D] in
theorem Record.inherit_born (r : Record F) (i k : Nat) : (r.inherit i k).born = r.born := by
  simp only [Record.inherit]
  split <;> rfl

omit [Num F] [Num D] [Casts F D] in
/-- A life that is seen keeps its crossings, and is given that of the event. -/
theorem Covers.saw {out : List (Event F)} (hc : Covers r out) {i : Nat} (hi : i < r.born) (side : Int) (ev : Option (Event F)) :
    Covers (r.put i ((r.lives i).saw side ev)) (out ++ ev.toList) := by
  have hkeeps : Covers (r.put i ((r.lives i).saw side ev)) out := by
    refine hc.mono (Nat.le_refl _) fun j _ c hcr => ?_
    simp only [Record.put, Function.update_apply]
    split
    · next heq =>
      subst heq
      exact List.mem_append_left _ hcr
    · exact hcr
  intro e he
  obtain he | he := List.mem_append.mp he
  · exact hkeeps e he
  · obtain rfl : ev = some e := by simpa using he
    refine ⟨i, hi, ⟨(r.lives i).side, side, !(r.lives i).settled, e⟩, ?_, rfl⟩
    simp [Record.put, Life.saw]

theorem Inv.covers (h : Inv ls r) {out : List (Event F)} (hc : Covers r out) (a : Act F D) :
    Covers (record cfg ln ls a r) (emit cfg ln ls a out) := by
  cases a with
  | remove tid t =>
    simp only [emit, Lib.tells, LineCross.next, List.append_nil, record]
    cases ls.st tid with
    | none => exact hc
    | some s =>
      simp only [Record.ended]
      cases r.live tid with
      | none => exact hc
      | some i => exact hc
  | observe m tr =>
    obtain ⟨hbegin, hlive, -, -⟩ := h.begin tr.trackId
    have hborn := (hbegin.born_of hlive).1
    have hcbegin : Covers (r.begin tr.trackId).1 out := by
      simp only [Record.begin]
      cases r.live tr.trackId with
      | some i => exact hc
      | none =>
        refine hc.mono (Nat.le_succ _) fun i hi c hcr => ?_
        simp only [Function.update_of_ne (Nat.ne_of_lt hi)]
        exact hcr
    simp only [record, emit]
    cases heir cfg ls (ls.found tr.trackId) (anchorOf m tr) m.tMonoS with
    | none => exact hcbegin.saw hborn _ _
    | some k =>
      have hcheir : Covers ((r.begin tr.trackId).1.inherit (r.begin tr.trackId).2 k) out :=
        hcbegin.mono (Nat.le_of_eq (Record.inherit_born _ _ _).symm) fun i _ c hcr => by rw [Record.inherit_crossings]; exact hcr
      exact hcheir.saw (by rw [Record.inherit_born]; exact hborn) _ _

/-- What the acts of a line leave in the record. -/
theorem run_record {as : List (Act F D)} {ls' : LineState F D} {out out' : List (Event F)}
    (hr : Lib.run (traced (line cfg ln) (emit cfg ln)) (ls, out) as = some (ls', out'))
    (hm : Meets (line cfg ln) (fun ls a => ¬ Renews cfg ls a) ls as) (h : Inv ls r) (hc : Covers r out) :
    ∃ r', Lib.run (traced (line cfg ln) (record cfg ln)) (ls, r) as = some (ls', r') ∧ Inv ls' r' ∧ Covers r' out' := by
  induction as generalizing ls out r with
  | nil =>
    cases hr
    exact ⟨r, rfl, h, hc⟩
  | cons a as ih =>
    obtain ⟨⟨ls₁, out₁⟩, ha, hr⟩ := run_cons.mp hr
    obtain ⟨hline, rfl⟩ := traced_eq_some.mp ha
    obtain ⟨hnew, hm⟩ := (meets_cons_some hline).mp hm
    cases hline
    obtain ⟨r', hrun, h', hc'⟩ := ih hr hm (h.next hnew) (h.covers hc a)
    exact ⟨r', run_cons.mpr ⟨_, rfl, hrun⟩, h', hc'⟩

/-- What an act does to the line and its record. -/
def onAct (cfg : LineCrossCfg F) (ln : Line F) (x : LineState F D × Record F) (a : Act F D) : LineState F D × Record F :=
  ((LineCross.next cfg ln x.1 a).1, record cfg ln x.1 a x.2)

theorem run_eq_foldl {x : LineState F D × Record F} {as : List (Act F D)} :
    Lib.run (traced (line cfg ln) (record cfg ln)) x as = some (as.foldl (onAct cfg ln) x) := by
  induction as generalizing x with
  | nil => rfl
  | cons a as ih => exact run_cons.mpr ⟨onAct cfg ln x a, rfl, ih⟩

/-- **Along a chain the directions alternate**, and an entry has one heir, in
every run in which only new tracks inherit. -/
theorem chains_lawful {li : Nat} (hln : cfg.lines[li]? = some ln) (calls : List (AnalyzerCall F D))
    (hm : Meets (line cfg ln) (fun ls a => ¬ Renews cfg ls a) (.empty F D) (acts cfg.classes calls)) :
    ∃ ls r, (run cfg (start cfg, []) calls).1[li]? = some ls ∧
      Lib.run (traced (line cfg ln) (record cfg ln)) (.empty F D, .empty F) (acts cfg.classes calls) = some (ls, r) ∧
      r.Lawful ∧ Covers r (toldBy li (run cfg (start cfg, []) calls).2) := by
  obtain ⟨ls, hr, hls⟩ := run_line hln calls
  obtain ⟨r, hrun, hinv, hcovers⟩ := run_record hr hm inv_empty fun ev hev => by cases hev
  exact ⟨ls, r, hls, hrun, hinv.toLawful, hcovers⟩

end

def door : Line ℚ := { id := "door", ax := 0, ay := 0.5, bx := 1, by_ := 0.5 }

/-- The trackAt 7 comes over the line. -/
def comes : List (AnalyzerCall ℚ ℚ) :=
  [((0 : ℚ), (0.6 : ℚ)), (1, 0.6), (2, 0.6), (3, 0.4)].map fun (t, y) => frameAt t [trackAt 7 t 0.5 y]

/-- It is taken for another, which goes back. -/
def takenForAnother : List (AnalyzerCall ℚ ℚ) :=
  comes ++ .onTrackRemoved 7 3 ::
    [((4 : ℚ), (0.4 : ℚ)), (5, 0.4), (6, 0.4), (7, 0.6)].map fun (t, y) => frameAt t [trackAt 8 t 0.5 y]

theorem chains_lawful_takenForAnother :
    ∃ ls r, (run acrossTheMiddle (start acrossTheMiddle, []) takenForAnother).1[0]? = some ls ∧
      Lib.run (traced (line acrossTheMiddle door) (record acrossTheMiddle door)) (.empty ℚ ℚ, .empty ℚ)
        (acts acrossTheMiddle.classes takenForAnother) = some (ls, r) ∧
      r.Lawful ∧ Covers r (toldBy 0 (run acrossTheMiddle (start acrossTheMiddle, []) takenForAnother).2) :=
  chains_lawful rfl takenForAnother (by decide +kernel)

/-! ## A track that is new again -/

/-- It stands behind the line for `n` frames. -/
def stands (t : ℚ) : Nat → List (AnalyzerCall ℚ ℚ)
  | 0 => []
  | n + 1 => frameAt t [trackAt 7 t 0.5 0.4] :: stands (t + 1) n

/-- The trackAt 8 goes over the line, back to where 7 came from, and is removed;
then 7 goes to where it was, and comes over the line again. -/
def again (t : ℚ) : List (AnalyzerCall ℚ ℚ) :=
  [frameAt t [trackAt 7 t 0.5 0.4, trackAt 8 t 0.5 0.4],
    frameAt (t + 1) [trackAt 7 (t + 1) 0.5 0.4, trackAt 8 (t + 1) 0.5 0.4],
    frameAt (t + 2) [trackAt 7 (t + 2) 0.5 0.4, trackAt 8 (t + 2) 0.5 0.4],
    frameAt (t + 3) [trackAt 7 (t + 3) 0.5 0.4, trackAt 8 (t + 3) 0.5 0.6],
    .onTrackRemoved 8 (t + 3),
    frameAt (t + 4) [trackAt 7 (t + 4) 0.5 0.6],
    frameAt (t + 5) [trackAt 7 (t + 5) 0.9 0.6],
    frameAt (t + 6) [trackAt 7 (t + 6) 0.9 0.4]]

/-- What is kept for the trackAt 7 behind the line. -/
def behind (age : UInt32) : PerTrack ℚ := { side := -1, counted := 1, anchor := some (0.5, 0.4), lx := 0.5, ly := 0.4, age := age }

theorem anchorOf_stands (t : ℚ) : anchorOf (frameMeta t) (trackAt 7 t 0.5 0.4) = (0.5, 0.4) := by
  have hzero : anchorOf (frameMeta 0) (trackAt 7 0 0.5 0.4) = (0.5, 0.4) := by decide +kernel
  exact hzero

theorem sideOf_stands : sideOf acrossTheMiddle door (0.5, 0.4) = -1 := by decide +kernel

section

variable {ls : LineState ℚ ℚ} {r : Record ℚ} {i : Nat} {age : UInt32}

/-- A track that stands behind the line gets older, and that is all. -/
theorem onAct_stands (hlost : ls.lost = []) (hst : ls.st 7 = some (behind age)) (hi : r.live 7 = some i)
    (hside : (r.lives i).side = -1) (hsettled : (r.lives i).settled = true) (t : ℚ) :
    onAct acrossTheMiddle door (ls, r) (.observe (frameMeta t) (trackAt 7 t 0.5 0.4)) =
      ({ ls with st := Function.update ls.st 7 (some (behind (age + 1))) }, r) := by
  have hheir : heir acrossTheMiddle ls (ls.found 7) (0.5, 0.4) t = none := by simp [heir, hlost]
  have hfound : ls.found 7 = behind age := by rw [LineState.found, hst, Option.getD_some]
  have hcross : cross acrossTheMiddle door (behind (age + 1)) 7 (0.5, 0.4) (trackAt 7 t 0.5 0.4) = (behind (age + 1), none) := by
    simp [cross, sideOf_stands, behind]
  have hobserved : observed acrossTheMiddle ls 7 (0.5, 0.4) t = (behind (age + 1), ls.lost) := by
    rw [observed_new hheir, hfound]
    rfl
  have hstep : step acrossTheMiddle door ls 7 (0.5, 0.4) t (trackAt 7 t 0.5 0.4) =
      ({ ls with st := Function.update ls.st 7 (some (behind (age + 1))) }, none) := by
    simp only [step, hobserved, hcross]
  have hlife : (r.lives i).saw (-1) none = r.lives i := by
    generalize r.lives i = life at hside hsettled ⊢
    obtain ⟨tid, heritage, side, settled, crossings⟩ := life
    simp only at hside hsettled
    rw [hside, hsettled]
    simp [Life.saw]
  have hrecord : record acrossTheMiddle door ls (.observe (frameMeta t) (trackAt 7 t 0.5 0.4)) r = r := by
    simp only [record, Record.begin, trackAt_trackId, frameMeta_tMonoS, hi, anchorOf_stands, hstep, hheir, sideOf_stands, hlife,
      Record.put, Function.update_eq_self]
  simp only [onAct, next, anchorOf_stands, trackAt_trackId, frameMeta_tMonoS, hstep, hrecord]

/-- Its age goes on, as a `uint32_t` does. -/
theorem foldl_stands (hlost : ls.lost = []) (hst : ls.st 7 = some (behind age)) (hi : r.live 7 = some i)
    (hside : (r.lives i).side = -1) (hsettled : (r.lives i).settled = true) (n : Nat) (t : ℚ) :
    (acts acrossTheMiddle.classes (stands t n)).foldl (onAct acrossTheMiddle door) (ls, r) =
      ({ ls with st := Function.update ls.st 7 (some (behind (age + UInt32.ofNat n))) }, r) := by
  induction n generalizing ls age t with
  | zero =>
    have hsame : Function.update ls.st 7 (some (behind (age + UInt32.ofNat 0))) = ls.st := by
      rw [show age + UInt32.ofNat 0 = age by simp, ← hst, Function.update_eq_self]
    rw [hsame]
    rfl
  | succ n ih =>
    have hacts : acts acrossTheMiddle.classes (stands t (n + 1)) =
        .observe (frameMeta t) (trackAt 7 t 0.5 0.4) :: acts acrossTheMiddle.classes (stands (t + 1) n) := rfl
    have hrest := @ih { ls with st := Function.update ls.st 7 (some (behind (age + 1))) } (age + 1) hlost (by simp) (t + 1)
    rw [hacts, List.foldl_cons, onAct_stands hlost hst hi hside hsettled, hrest]
    have hage : age + 1 + UInt32.ofNat n = age + UInt32.ofNat (n + 1) := by
      rw [UInt32.ofNat_add, UInt32.add_assoc, UInt32.add_comm 1]
      rfl
    rw [hage, Function.update_idem]

end

/-- The line once the trackAt 7 has come over it. -/
def hasCome : LineState ℚ ℚ × Record ℚ :=
  (acts acrossTheMiddle.classes comes).foldl (onAct acrossTheMiddle door) (.empty ℚ ℚ, .empty ℚ)

theorem hasCome_st : hasCome.1.st 7 = some (behind 4) := by decide +kernel

/-- The line when it has stood there for so long that its age will be 0 when it goes back. -/
def hasStood : LineState ℚ ℚ × Record ℚ :=
  ({ hasCome.1 with st := Function.update hasCome.1.st 7 (some (behind (4 + UInt32.ofNat (2 ^ 32 - 8)))) }, hasCome.2)

/-- A track that is new again inherits what another has left, and is counted
twice in one direction. -/
theorem chains_not_lawful : ∃ ls r, Lib.run (traced (line acrossTheMiddle door) (record acrossTheMiddle door)) (.empty ℚ ℚ, .empty ℚ)
    (acts acrossTheMiddle.classes (comes ++ stands 4 (2 ^ 32 - 8) ++ again 4294967292)) = some (ls, r) ∧ ¬ r.Lawful := by
  have hstands : (acts acrossTheMiddle.classes (stands 4 (2 ^ 32 - 8))).foldl (onAct acrossTheMiddle door) hasCome = hasStood :=
    foldl_stands (i := 0) (by decide +kernel) hasCome_st (by decide +kernel) (by decide +kernel) (by decide +kernel) _ _
  have hchain : (((acts acrossTheMiddle.classes (again 4294967292)).foldl (onAct acrossTheMiddle door) hasStood).2.lives 0).chain =
      [.backward, .forward, .forward] := by decide +kernel
  refine ⟨((acts acrossTheMiddle.classes (again 4294967292)).foldl (onAct acrossTheMiddle door) hasStood).1,
    ((acts acrossTheMiddle.classes (again 4294967292)).foldl (onAct acrossTheMiddle door) hasStood).2, ?_, fun h => ?_⟩
  · rw [run_eq_foldl, acts_append, acts_append, List.foldl_append, List.foldl_append]
    rw [show (acts acrossTheMiddle.classes comes).foldl (onAct acrossTheMiddle door) (.empty ℚ ℚ, .empty ℚ) = hasCome from rfl, hstands]
  · have halternates := (h.lives 0).alternates
    rw [hchain] at halternates
    exact absurd halternates (by decide)

end RetailVision.Vb.LineCross
