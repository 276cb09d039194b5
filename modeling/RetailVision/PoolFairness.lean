/-
Fair batching (`ContextPool::worker`): one context thread, round after round,
claims up to `max_batch_` streams from `cursor_` on and then moves the cursor
past them and one more. So a stream is skipped each round, and where
`max_batch_ + 1` divides the number of streams it is the same ones every time
(`starved_of_dvd`); everywhere else all are claimed in as many rounds as
there are streams (`fair_iff`).
-/
import RetailVision.NativeRuntime
import RetailVision.Lib.Stride

set_option linter.all false

namespace RetailVision.ContextPool

open Lib

/-- The claims of one round over `n` streams, from the `k`th place in cursor
order on, of which `left` are left. A stream is claimed if it is `ready` (a
frame in its slot, not busy nor removing, its lock free) and not claimed
already. The sum is of `size_t`. -/
def claims (n maxBatch start : Nat) (ready : Nat → Bool) : (left k : Nat) → List Nat → List Nat
  | 0, _, batch => batch
  | left + 1, k, batch =>
    if batch.length < maxBatch then
      let i := (start + k) % 2 ^ 64 % n
      if ready i && !batch.contains i then claims n maxBatch start ready left (k + 1) (batch ++ [i])
      else claims n maxBatch start ready left (k + 1) batch
    else batch

/-- One round: the batch, and `cursor_` after it. -/
def round (n maxBatch : Nat) (ready : Nat → Bool) (cursor : Nat) : List Nat × Nat :=
  let batch := claims n maxBatch cursor ready n 0 []
  (batch, (cursor + batch.length + 1) % 2 ^ 64)

/-- The cursor after rounds in which every stream was ready. -/
def cursorAfter (n maxBatch cursor : Nat) : Nat → Nat
  | 0 => cursor
  | r + 1 => (round n maxBatch (fun _ => true) (cursorAfter n maxBatch cursor r)).2

/-- What is claimed in round `r`. -/
def claimed (n maxBatch cursor r : Nat) : List Nat :=
  (round n maxBatch (fun _ => true) (cursorAfter n maxBatch cursor r)).1

/-- Every stream is claimed in the next `n` rounds. -/
def Fair (n maxBatch cursor : Nat) : Prop := ∀ i < n, ∃ r < n, i ∈ claimed n maxBatch cursor r

variable {n maxBatch start cursor k r i : Nat}

/-- Places less than a round apart are different streams. -/
theorem place_notMem (start : Nat) (hk : k < n) : (start + k) % n ∉ (List.range k).map fun j => (start + j) % n := by
  intro h
  obtain ⟨j, hj, he⟩ := List.mem_map.mp h
  have hj := List.mem_range.mp hj
  have hmod : start + j ≡ start + k [MOD n] := he
  have := (Nat.ModEq.add_left_cancel' start hmod).eq_of_lt_of_lt (by omega) hk
  omega

theorem claims_eq (hw : start + min n maxBatch ≤ 2 ^ 64) : ∀ {left k : Nat}, k + left = n → k ≤ maxBatch →
    claims n maxBatch start (fun _ => true) left k ((List.range k).map fun j => (start + j) % n) =
      (List.range (min n maxBatch)).map fun j => (start + j) % n
  | 0, k, hn, hk => by
    have hm : min n maxBatch = k := by omega
    rw [hm]
    rfl
  | left + 1, k, hn, hk => by
    unfold claims
    by_cases hlt : k < maxBatch
    · have hplace : (start + k) % 2 ^ 64 = start + k := Nat.mod_eq_of_lt (by omega)
      have hkn : k < n := by omega
      have hnext : claims n maxBatch start (fun _ => true) left (k + 1)
          ((List.range (k + 1)).map fun j => (start + j) % n) =
            (List.range (min n maxBatch)).map fun j => (start + j) % n := claims_eq hw (by omega) (by omega)
      rw [List.range_succ, List.map_append] at hnext
      simp only [List.length_map, List.length_range, if_pos hlt, hplace, List.contains_eq_mem,
        decide_eq_false (place_notMem start hkn), Bool.not_false, Bool.and_self, if_true]
      exact hnext
    · have hm : min n maxBatch = k := by omega
      simp [hlt, hm]

/-- A round claims the streams in cursor order, as many as there are or as
fit. -/
theorem round_eq (hw : cursor + min n maxBatch < 2 ^ 64) : round n maxBatch (fun _ => true) cursor =
    ((List.range (min n maxBatch)).map fun j => (cursor + j) % n, (cursor + min n maxBatch + 1) % 2 ^ 64) := by
  have h := claims_eq (k := 0) (Nat.le_of_lt hw) (Nat.zero_add n) (Nat.zero_le _)
  simp only [List.range_zero, List.map_nil] at h
  simp [round, h]

theorem cursorAfter_eq (hr : cursor + r * (min n maxBatch + 1) < 2 ^ 64) :
    cursorAfter n maxBatch cursor r = cursor + r * (min n maxBatch + 1) := by
  induction r with
  | zero => simp [cursorAfter]
  | succ r ih =>
    rw [Nat.succ_mul] at hr ⊢
    rw [cursorAfter, ih (by omega), round_eq (by omega)]
    dsimp only
    rw [Nat.mod_eq_of_lt (by omega)]
    omega

/-- The streams of round `r`, while the cursor does not wrap. -/
theorem mem_claimed (hr : cursor + (r + 1) * (min n maxBatch + 1) ≤ 2 ^ 64) :
    i ∈ claimed n maxBatch cursor r ↔ ∃ k < min n maxBatch, (cursor + r * (min n maxBatch + 1) + k) % n = i := by
  rw [Nat.succ_mul] at hr
  unfold claimed
  rw [cursorAfter_eq (by omega), round_eq (by omega)]
  simp

/-- **Every stream is claimed in `n` rounds**, unless the streams are more
than a batch and come in whole groups of a batch and one. -/
theorem fair_iff (hn : 0 < n) (hw : cursor + n * (min n maxBatch + 1) ≤ 2 ^ 64) :
    Fair n maxBatch cursor ↔ n ≤ maxBatch ∨ ¬ (maxBatch + 1) ∣ n := by
  have hfair : Fair n maxBatch cursor ↔ ∀ i < n, ∃ r < n, ∃ k < min n maxBatch,
      (cursor + r * (min n maxBatch + 1) + k) % n = i := by
    refine forall₂_congr fun i _ => exists_congr fun r => and_congr_right fun hr => mem_claimed ?_
    have hle : (r + 1) * (min n maxBatch + 1) ≤ n * (min n maxBatch + 1) :=
      Nat.mul_le_mul_right (min n maxBatch + 1) (Nat.succ_le_of_lt hr)
    omega
  rw [hfair, covered_iff hn]
  rcases Nat.le_total n maxBatch with hle | hle
  · rw [Nat.min_eq_left hle]
    have hg : Nat.gcd (n + 1) n = 1 := by simp
    exact iff_of_true (by omega) (.inl hle)
  · rw [Nat.min_eq_right hle]
    have hdvd := Nat.gcd_dvd_left (maxBatch + 1) n
    have hg := Nat.le_of_dvd (Nat.succ_pos _) hdvd
    constructor
    · intro hgle
      by_cases heq : n = maxBatch
      · exact .inl (Nat.le_of_eq heq)
      · refine .inr fun hd => ?_
        rw [Nat.gcd_eq_left hd] at hgle
        omega
    · intro h
      by_contra hlt
      have heq : Nat.gcd (maxBatch + 1) n = maxBatch + 1 := by omega
      have hd : maxBatch + 1 ∣ n := heq ▸ Nat.gcd_dvd_right (maxBatch + 1) n
      have := Nat.le_of_dvd hn hd
      rcases h with h | h
      · omega
      · exact h hd

/-- Four cameras, two at a time. -/
theorem fair_iff_of_four_streams : Fair 4 2 5 := (fair_iff (by decide) (by decide)).mpr (.inr (by decide))

/-- **In whole groups**, the last of each group is never claimed. -/
theorem starved_of_dvd (hd : (maxBatch + 1) ∣ n) (hn : 0 < n) (hw : cursor + (r + 1) * (maxBatch + 1) ≤ 2 ^ 64) :
    (cursor + maxBatch) % n ∉ claimed n maxBatch cursor r := by
  have hle := Nat.le_of_dvd hn hd
  have hmin : min n maxBatch = maxBatch := by omega
  rw [mem_claimed (by rw [hmin]; exact hw), hmin]
  rintro ⟨k, hk, he⟩
  have hg : maxBatch < Nat.gcd (maxBatch + 1) n := by
    rw [Nat.gcd_eq_left hd]
    exact Nat.lt_succ_self _
  exact not_covered_of_lt_gcd hg hk he

/-- Two cameras, one at a time: the second is not claimed. -/
theorem second_stream_starved : ¬ Fair 2 1 0 := by
  unfold Fair
  decide

/-! ## The round of a context thread -/

section Runtime

open NativeRuntime

variable {s : State} {c : Nat} {todo : List Nat} {batch : List (Nat × Nat)}

/-- A stream a context thread would claim. -/
structure Ready (s : State) (h : Nat) : Prop where
  frame : ∃ f, (s.heap h).latest = some f
  free : (s.heap h).holder = none
  idle : (s.heap h).busy = false
  stays : (s.heap h).removing = false

/-- The places of the snapshot, from the cursor on. -/
theorem rotateLeft_getElem? (cursor : Nat) {l : List Nat} {j : Nat} (hj : j < l.length) :
    (l.rotateLeft (cursor % l.length))[j]? = l[(cursor + j) % l.length]? := by
  have hlt : cursor % l.length < l.length := Nat.mod_lt _ (by omega)
  have hmod : (cursor + j) % l.length = (cursor % l.length + j) % l.length := by simp
  rw [hmod]
  unfold List.rotateLeft
  by_cases h1 : l.length ≤ 1
  · have hlen : l.length = 1 := by omega
    have hj0 : j = 0 := by omega
    have hc0 : cursor % 1 = 0 := Nat.mod_one _
    simp [hlen, hj0, hc0]
  · simp only [h1, if_false, Nat.mod_mod]
    by_cases hlast : cursor % l.length + j < l.length
    · rw [Nat.mod_eq_of_lt hlast, List.getElem?_append_left (by simp; omega), List.getElem?_drop]
    · have hwrap : (cursor % l.length + j) % l.length = cursor % l.length + j - l.length := by
        rw [Nat.mod_eq_sub_mod (by omega)]
        exact Nat.mod_eq_of_lt (by omega)
      rw [hwrap, List.getElem?_append_right (by simp; omega), List.length_drop, List.getElem?_take_of_lt (by omega)]
      congr 1
      omega

/-- One claim of a ready stream. -/
theorem step_claim {h : Nat} (hc : s.contexts c = .claiming (h :: todo) batch) (hlt : batch.length < maxBatch)
    (hr : Ready s h) : ∃ f s', step maxBatch s (.claim c true) = some s' ∧
      s'.contexts c = .claiming todo (batch ++ [(h, f)]) ∧ s'.cursor = s.cursor ∧
      ∀ k ≠ h, s'.heap k = s.heap k := by
  obtain ⟨f, hf⟩ := hr.frame
  have hstep : step maxBatch s (.claim c true) = some (s.claim c h true todo batch) := by
    simp only [step, stepContext, hc, if_pos hlt]
  refine ⟨f, _, hstep, ?_⟩
  simp only [State.claim, hf, hr.free, hr.idle, hr.stays, and_self, if_true, Function.update_self, true_and]
  exact ⟨rfl, fun k hk => Function.update_of_ne hk ..⟩

/-- As many claims as there are ready streams, or as fit. -/
theorem run_claims : ∀ {todo : List Nat} {s : State} {batch : List (Nat × Nat)} {j : Nat},
    s.contexts c = .claiming todo batch → todo.Nodup → (∀ h ∈ todo, Ready s h) → j ≤ todo.length →
    batch.length + j ≤ maxBatch → ∃ s' batch', run (step maxBatch) s (List.replicate j (.claim c true)) = some s' ∧
      s'.contexts c = .claiming (todo.drop j) batch' ∧ batch'.map (·.1) = batch.map (·.1) ++ todo.take j ∧
      s'.cursor = s.cursor
  | todo, s, batch, 0, hc, _, _, _, _ => ⟨s, batch, rfl, hc, by simp, rfl⟩
  | [], _, _, _ + 1, _, _, _, hj, _ => by simp at hj
  | h :: todo, s, batch, j + 1, hc, hn, hr, hj, hb => by
    obtain ⟨hnot, hn⟩ := List.nodup_cons.mp hn
    obtain ⟨f, t, ht, hct, hcur, hheap⟩ := step_claim hc (show batch.length < maxBatch by omega) (hr h (by simp))
    have hready : ∀ k ∈ todo, Ready t k := by
      intro k hk
      have hkh : k ≠ h := fun he => hnot (he ▸ hk)
      have hrk := hr k (List.mem_cons_of_mem _ hk)
      constructor <;> rw [hheap k hkh]
      · exact hrk.frame
      · exact hrk.free
      · exact hrk.idle
      · exact hrk.stays
    obtain ⟨s', batch', hrun, hcs, hmap, hcur'⟩ :=
      run_claims (j := j) hct hn hready (by simpa using hj) (by simp; omega)
    refine ⟨s', batch', ?_, hcs, ?_, hcur'.trans hcur⟩
    · rw [List.replicate_succ]
      exact run_cons.mpr ⟨t, ht, hrun⟩
    · rw [hmap]
      simp

/-- The first places of the snapshot. -/
theorem take_rotateLeft (cursor : Nat) {l : List Nat} {m : Nat} (hm : m ≤ l.length) :
    ((l.rotateLeft (cursor % l.length)).take m).map some = (List.range m).map fun j => l[(cursor + j) % l.length]? := by
  have hlen : (l.rotateLeft (cursor % l.length)).length = l.length := (rotateLeft_perm l _).length_eq
  refine List.ext_getElem (by simp [hlen, hm]) fun j h₁ h₂ => ?_
  simp only [List.length_map, List.length_range] at h₂
  have hget := rotateLeft_getElem? cursor (show j < l.length by omega)
  rw [List.getElem?_eq_getElem (by omega)] at hget
  simp only [List.getElem_map, List.getElem_take, List.getElem_range]
  exact hget

/-- **A round of the runtime's context thread**, with every stream ready, is
the round above: it claims the streams whose places that one claims. -/
theorem runtime_round (hc : s.contexts c = .idle) (hj : ∀ h, s.control ≠ .joining h)
    (hn : s.streams.Nodup) (hr : ∀ h ∈ s.streams, Ready s h)
    (hw : s.cursor + min s.streams.length maxBatch + 1 < 2 ^ 64) :
    ∃ s' batch, run (step maxBatch) s (.snapshot c ::
        List.replicate (min s.streams.length maxBatch) (.claim c true) ++ [.endClaims c]) = some s' ∧
      batch.map (fun b => some b.1) =
        (round s.streams.length maxBatch (fun _ => true) s.cursor).1.map (s.streams[·]?) ∧
      s'.cursor = (round s.streams.length maxBatch (fun _ => true) s.cursor).2 ∧
      s'.contexts c = if batch = [] then .idle else .batch batch (batch.map (·.1)) := by
  let todo := s.streams.rotateLeft (s.cursor % s.streams.length)
  have hperm : todo.Perm s.streams := rotateLeft_perm ..
  have hsnap : step maxBatch s (.snapshot c) = some (s.setContext c (.claiming todo [])) := by
    simp only [step, stepContext, hc]
    rfl
  have hready : ∀ h ∈ todo, Ready (s.setContext c (.claiming todo [])) h := by
    intro h hh
    have hrh := hr h (hperm.mem_iff.mp hh)
    exact ⟨hrh.frame, hrh.free, hrh.idle, hrh.stays⟩
  have hle : min s.streams.length maxBatch ≤ todo.length := by
    rw [hperm.length_eq]
    exact Nat.min_le_left ..
  have hfits : ([] : List (Nat × Nat)).length + min s.streams.length maxBatch ≤ maxBatch := by simp
  have hctx : (s.setContext c (.claiming todo [])).contexts c = .claiming todo [] := Function.update_self ..
  obtain ⟨t, batch, hrun, hct, hmap, hcur⟩ := run_claims hctx (hperm.nodup_iff.mpr hn) hready hle hfits
  have hlen : batch.length = min s.streams.length maxBatch := by
    have h := congrArg List.length hmap
    simp only [List.length_map, List.map_nil, List.nil_append, List.length_take, hperm.length_eq] at h
    omega
  have hend : todo.drop (min s.streams.length maxBatch) = [] ∨ maxBatch ≤ batch.length := by
    rcases Nat.le_total s.streams.length maxBatch with hle | hle
    · left
      rw [List.drop_eq_nil_iff, hperm.length_eq]
      omega
    · right
      omega
  have hstep : step maxBatch t (.endClaims c) = some (t.endClaims c batch) := by
    simp only [step, stepContext, hct, if_pos hend]
  have hround := round_eq (show s.cursor + min s.streams.length maxBatch < 2 ^ 64 by omega)
  refine ⟨_, batch, run_append.mpr ⟨t, run_cons.mpr ⟨_, hsnap, hrun⟩, run_cons.mpr ⟨_, hstep, rfl⟩⟩, ?_, ?_, ?_⟩
  · have htake := take_rotateLeft s.cursor (Nat.min_le_left s.streams.length maxBatch)
    have hbatch : batch.map (fun b => some b.1) = (batch.map (·.1)).map some := by simp
    rw [hbatch, hmap, hround]
    simp only [List.map_nil, List.nil_append, List.map_map]
    exact htake
  · have hcursor : (t.endClaims c batch).cursor = t.cursor + batch.length + 1 := rfl
    rw [hcursor, hcur, hlen, hround]
    exact (Nat.mod_eq_of_lt hw).symm
  · exact Function.update_self ..

end Runtime

end RetailVision.ContextPool
