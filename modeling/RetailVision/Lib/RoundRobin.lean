/-
Queues that are served in turn. A round goes over the places from `start` round,
and takes the oldest of each queue while there is room (`serve`); what it takes is
the first of the oldest, in the order of the places (`served_eq`). So a place that
has fewer places before it than there is room is not passed over
(`mem_served_of_before`), and each next start leaves one less before it
(`before_succ`).
-/
import Mathlib.Data.List.Rotate
import Mathlib.Data.List.GetD

set_option linter.all false

namespace RetailVision.Lib.RoundRobin

/-- The places below `n`, from `start` round. -/
def places (n start : Nat) : List Nat := (List.range n).map fun k => (start + k) % n

/-- How many places come before `i`. -/
def before (n start i : Nat) : Nat := if start ≤ i then i - start else i + n - start

variable {n start i j : Nat}

theorem places_eq_rotate : places n start = (List.range n).rotate start := by
  refine List.ext_getElem (by simp [places]) fun k hk _ => ?_
  rw [List.getElem_rotate]
  simp [places, Nat.add_comm]

theorem nodup_places (n start : Nat) : (places n start).Nodup := by
  rw [places_eq_rotate]
  exact List.nodup_rotate.mpr List.nodup_range

@[simp] theorem mem_places : i ∈ places n start ↔ i < n := by
  rw [places_eq_rotate, List.mem_rotate, List.mem_range]

theorem before_lt (hs : start < n) (hi : i < n) : before n start i < n := by
  rw [before]
  split <;> omega

/-- The places before `i`, and `i`. -/
theorem places_split (hs : start < n) (hi : i < n) : ∃ pre post, places n start = pre ++ i :: post ∧ pre.length = before n start i := by
  have hlt : before n start i < (places n start).length := by
    simpa [places] using before_lt hs hi
  have hget : (places n start)[before n start i] = i := by
    simp only [places, List.getElem_map, List.getElem_range, before]
    split
    · rw [show start + (i - start) = i by omega, Nat.mod_eq_of_lt hi]
    · rw [show start + (i + n - start) = i + n by omega, Nat.add_mod_right, Nat.mod_eq_of_lt hi]
  refine ⟨(places n start).take (before n start i), (places n start).drop (before n start i + 1), ?_, by rw [List.length_take]; omega⟩
  have hdrop := List.drop_eq_getElem_cons hlt
  rw [hget] at hdrop
  rw [← hdrop, List.take_append_drop]

/-- **The next start** leaves one less before a place that is not the start. -/
theorem before_succ (hs : start < n) (hi : i < n) (hne : before n start i ≠ 0) :
    before n ((start + 1) % n) i = before n start i - 1 := by
  have hnext : (start + 1) % n = if start + 1 = n then 0 else start + 1 := by
    split
    · next h => rw [h, Nat.mod_self]
    · exact Nat.mod_eq_of_lt (by omega)
  rw [hnext]
  simp only [before] at hne ⊢
  split at hne <;> split <;> split <;> omega

variable {α : Type*}

/-- The oldest of a queue, if there is room. -/
def serve (room : Nat) (s : List (List α) × List α) (i : Nat) : List (List α) × List α :=
  if s.2.length < room then match s.1[i]? with
    | some (x :: queue) => (s.1.set i queue, s.2 ++ [x])
    | _ => s
  else s

/-- A queue; there is none beyond the last. -/
def queueAt (queues : List (List α)) (i : Nat) : List α := queues.getD i []

variable {room : Nat} {s s' t : List (List α) × List α} {queues : List (List α)} {out : List α} {is : List Nat} {x : α} {queue : List α}

theorem queueAt_set (hi : i < queues.length) (queue : List α) (j : Nat) :
    queueAt (queues.set i queue) j = if i = j then queue else queueAt queues j := by
  rw [queueAt, queueAt, List.getD_eq_getElem?_getD, List.getD_eq_getElem?_getD, List.getElem?_set]
  by_cases hij : i = j
  · subst hij
    simp [hi]
  · simp [hij]

/-- **What serving a place does.** -/
theorem serve_cases (room : Nat) (s : List (List α) × List α) (i : Nat) :
    (serve room s i = s ∧ (room ≤ s.2.length ∨ queueAt s.1 i = [])) ∨
    ∃ x queue, s.2.length < room ∧ i < s.1.length ∧ queueAt s.1 i = x :: queue ∧ serve room s i = (s.1.set i queue, s.2 ++ [x]) := by
  rw [serve, queueAt, List.getD_eq_getElem?_getD]
  split
  · next hroom =>
    cases hget : s.1[i]? with
    | none => exact .inl ⟨rfl, .inr rfl⟩
    | some queue =>
      cases queue with
      | nil => exact .inl ⟨rfl, .inr rfl⟩
      | cons x queue => exact .inr ⟨x, queue, hroom, (List.getElem?_eq_some_iff.mp hget).1, rfl, rfl⟩
  · exact .inl ⟨rfl, .inl (by omega)⟩

/-! ## A round -/

/-- **What a round takes**: the first of the oldest. -/
theorem served_eq (his : is.Nodup) (hout : s.2.length ≤ room) :
    (is.foldl (serve room) s).2 = (s.2 ++ is.filterMap fun i => (queueAt s.1 i).head?).take room := by
  induction is generalizing s with
  | nil => simp [List.take_of_length_le hout]
  | cons i is ih =>
    obtain ⟨hnot, his⟩ := List.nodup_cons.mp his
    rw [List.foldl_cons]
    obtain ⟨heq, hwhy⟩ | ⟨x, queue, hroom, hi, hqueue, heq⟩ := serve_cases room s i
    · rw [heq, ih his hout]
      obtain hfull | hempty := hwhy
      · rw [List.take_append_of_le_length (by omega), List.take_append_of_le_length (by omega)]
      · rw [List.filterMap_cons_none (by rw [hempty]; rfl)]
    · have hrest : is.filterMap (fun j => (queueAt (s.1.set i queue) j).head?) = is.filterMap fun j => (queueAt s.1 j).head? := by
        refine List.filterMap_congr fun j hj => ?_
        rw [queueAt_set hi, if_neg fun hij : i = j => hnot (hij ▸ hj)]
      rw [heq, ih his (by simp; omega)]
      dsimp only
      rw [hrest, List.filterMap_cons_some (by rw [hqueue]; rfl), List.append_assoc]
      rfl

theorem length_le_serve : s.2.length ≤ (serve room s i).2.length := by
  obtain ⟨heq, -⟩ | ⟨x, queue, -, -, -, heq⟩ := serve_cases room s i
  · rw [heq]
  · simp [heq]

theorem length_le_round : s.2.length ≤ (is.foldl (serve room) s).2.length := by
  induction is generalizing s with
  | nil => exact le_rfl
  | cons i is ih => exact length_le_serve.trans ih

/-- **A round that does not fill up** takes one of each queue of its places. -/
theorem queueAt_round (his : is.Nodup) (hroom : (is.foldl (serve room) s).2.length < room) (j : Nat) :
    queueAt (is.foldl (serve room) s).1 j = if j ∈ is then (queueAt s.1 j).tail else queueAt s.1 j := by
  induction is generalizing s with
  | nil => simp
  | cons i is ih =>
    obtain ⟨hnot, his⟩ := List.nodup_cons.mp his
    rw [List.foldl_cons] at hroom ⊢
    have hfree : s.2.length < room := (length_le_serve.trans length_le_round).trans_lt hroom
    have hone : queueAt (serve room s i).1 j = if i = j then (queueAt s.1 j).tail else queueAt s.1 j := by
      obtain ⟨heq, hfull | hempty⟩ | ⟨x, queue, -, hi, hqueue, heq⟩ := serve_cases room s i
      · omega
      · rw [heq]
        split
        · next hij => rw [← hij, hempty, List.tail_nil]
        · rfl
      · rw [heq, queueAt_set hi]
        split
        · next hij => rw [← hij, hqueue, List.tail_cons]
        · rfl
    rw [ih his hroom, hone]
    by_cases hij : i = j
    · subst hij
      simp [hnot]
    · simp [hij, Ne.symm hij]

/-- **Two rounds** take the first of the oldest and then of the ones after these. -/
theorem served_twice (his : is.Nodup) (hout : s.2.length ≤ room) : ((is ++ is).foldl (serve room) s).2 =
    (s.2 ++ is.filterMap (fun i => (queueAt s.1 i).head?) ++ is.filterMap fun i => (queueAt s.1 i).tail.head?).take room := by
  have hfirst := served_eq his hout
  have hle : (is.foldl (serve room) s).2.length ≤ room := by
    rw [hfirst]
    exact List.length_take_le ..
  have hlen := congrArg List.length hfirst
  rw [List.length_take] at hlen
  rw [List.foldl_append, served_eq his hle]
  by_cases hroom : (is.foldl (serve room) s).2.length < room
  · have hrest : is.filterMap (fun i => (queueAt (is.foldl (serve room) s).1 i).head?) = is.filterMap fun i => (queueAt s.1 i).tail.head? :=
      List.filterMap_congr fun i hi => by rw [queueAt_round his hroom, if_pos hi]
    rw [List.take_of_length_le (by omega)] at hfirst
    rw [hrest, hfirst]
  · rw [List.take_append_of_le_length (by omega), List.take_of_length_le (by omega), hfirst]
    exact (List.take_append_of_le_length (by omega)).symm

/-- **A place is not passed over** that has fewer places before it than there is room. -/
theorem mem_served_of_before (hs : start < n) (hi : i < n) (hbefore : before n start i < room) (hqueue : queueAt queues i = x :: queue) :
    x ∈ ((places n start).filterMap fun i => (queueAt queues i).head?).take room := by
  obtain ⟨pre, post, hsplit, hpre⟩ := places_split hs hi
  have hlen : (pre.filterMap fun i => (queueAt queues i).head?).length < room := by
    have := List.length_filterMap_le (fun i => (queueAt queues i).head?) pre
    omega
  rw [hsplit, List.filterMap_append, List.filterMap_cons_some (by rw [hqueue]; rfl), List.take_append, List.mem_append]
  obtain ⟨k, hk⟩ : ∃ k, room - (pre.filterMap fun i => (queueAt queues i).head?).length = k + 1 := ⟨_, (Nat.sub_add_cancel (by omega)).symm⟩
  exact .inr (by rw [hk, List.take_succ_cons]; exact List.mem_cons_self)

/-! ## Where each comes from -/

/-- From `s` to `t` some have been taken, each out of the queue that it is of. -/
structure Moved (own : Nat → α → Bool) (s t : List (List α) × List α) : Prop where
  length : t.1.length = s.1.length
  more : ∃ new, t.2 = s.2 ++ new ∧ ∀ i, queueAt s.1 i = new.filter (own i) ++ queueAt t.1 i

/-- Each is of the queue that it is in, and of no other. -/
def Placed (own : Nat → α → Bool) (queues : List (List α)) : Prop := ∀ i, ∀ x ∈ queueAt queues i, ∀ j, own j x = decide (i = j)

variable {own : Nat → α → Bool}

theorem Moved.refl (s : List (List α) × List α) : Moved own s s := ⟨rfl, [], by simp, by simp⟩

theorem Moved.trans (h : Moved own s s') (h' : Moved own s' t) : Moved own s t := by
  obtain ⟨new, hnew, hqueues⟩ := h.more
  obtain ⟨new', hnew', hqueues'⟩ := h'.more
  refine ⟨h'.length.trans h.length, new ++ new', by rw [hnew', hnew, List.append_assoc], fun i => ?_⟩
  rw [hqueues, hqueues', List.filter_append, List.append_assoc]

theorem Moved.placed (h : Moved own s t) (hp : Placed own s.1) : Placed own t.1 := by
  obtain ⟨new, -, hqueues⟩ := h.more
  exact fun i x hx => hp i x (by rw [hqueues]; exact List.mem_append_right _ hx)

theorem moved_serve (hp : Placed own s.1) (room i : Nat) : Moved own s (serve room s i) := by
  obtain ⟨heq, -⟩ | ⟨x, queue, -, hi, hqueue, heq⟩ := serve_cases room s i
  · rw [heq]
    exact .refl s
  · rw [heq]
    refine ⟨List.length_set, [x], rfl, fun j => ?_⟩
    have hx : own j x = decide (i = j) := hp i x (by rw [hqueue]; exact List.mem_cons_self) j
    rw [queueAt_set hi]
    by_cases hij : i = j
    · subst hij
      simp [hx, hqueue]
    · simp [hx, hij]

theorem moved_round (hp : Placed own s.1) (room : Nat) (is : List Nat) : Moved own s (is.foldl (serve room) s) := by
  induction is generalizing s with
  | nil => exact .refl s
  | cons i is ih =>
    have hone := moved_serve hp room i
    exact hone.trans (ih (hone.placed hp))

/-- Of one queue a round takes no more than one for each time it comes to it. -/
theorem count_round (hp : Placed own s.1) (room : Nat) (is : List Nat) (j : Nat) :
    ((is.foldl (serve room) s).2.filter (own j)).length ≤ (s.2.filter (own j)).length + is.count j := by
  induction is generalizing s with
  | nil => simp
  | cons i is ih =>
    refine (ih ((moved_serve hp room i).placed hp)).trans ?_
    rw [List.count_cons]
    obtain ⟨heq, -⟩ | ⟨x, queue, -, -, hqueue, heq⟩ := serve_cases room s i
    · rw [heq]
      omega
    · have hx : own j x = decide (i = j) := hp i x (by rw [hqueue]; exact List.mem_cons_self) j
      rw [heq, List.filter_append, List.length_append]
      by_cases hij : i = j
      · simp [hx, hij]
        omega
      · simp [hx, hij]

end RetailVision.Lib.RoundRobin
