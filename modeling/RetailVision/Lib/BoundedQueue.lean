/-
A queue of at most `limit` elements that makes room by dropping its front,
and counts what it drops. Pushed at the back it keeps the newest `limit`
(`pushBack_items`). Pushed at the front it drops what was pushed last, once it
is full (`pushAllFront_items`).
-/
import Mathlib.Data.List.Basic

set_option linter.all false

namespace RetailVision.Lib

structure BoundedQueue (α : Type*) (limit : Nat) where
  items : List α
  dropped : Nat
  pos : 0 < limit
  bounded : items.length ≤ limit

namespace BoundedQueue

variable {α : Type*} {limit : Nat}

def empty (pos : 0 < limit) : BoundedQueue α limit :=
  { items := [], dropped := 0, pos := pos, bounded := Nat.zero_le _ }

/-- What is left of a queue that makes room for one more. -/
def room (q : BoundedQueue α limit) : List α := if q.items.length < limit then q.items else q.items.tail

/-- What it has dropped then. -/
def roomDropped (q : BoundedQueue α limit) : Nat := if q.items.length < limit then q.dropped else q.dropped + 1

variable {q : BoundedQueue α limit} {x r : α} {xs rs : List α}

theorem length_room : q.room.length + 1 ≤ limit := by
  have hb := q.bounded
  have hpos := q.pos
  unfold room
  split
  · omega
  · rw [List.length_tail]
    omega

def pushBack (q : BoundedQueue α limit) (x : α) : BoundedQueue α limit where
  items := q.room ++ [x]
  dropped := q.roomDropped
  pos := q.pos
  bounded := by simpa using length_room

def pushFront (q : BoundedQueue α limit) (x : α) : BoundedQueue α limit where
  items := x :: q.room
  dropped := q.roomDropped
  pos := q.pos
  bounded := length_room

/-- Pushed at the front from the last on, so that they come in order. -/
def pushAllFront (q : BoundedQueue α limit) (rs : List α) : BoundedQueue α limit := rs.foldr (fun r q => q.pushFront r) q

/-- The front is taken out. -/
def popFront (q : BoundedQueue α limit) : Option (α × BoundedQueue α limit) :=
  match h : q.items with
  | [] => none
  | x :: xs => some (x, {
    items := xs
    dropped := q.dropped
    pos := q.pos
    bounded := by
      have hb := q.bounded
      rw [h, List.length_cons] at hb
      omega })

theorem popFront_eq_some {q' : BoundedQueue α limit} (h : q.popFront = some (x, q')) :
    q.items = x :: q'.items ∧ q'.dropped = q.dropped := by
  unfold popFront at h
  split at h
  · cases h
  · next hitems =>
    cases h
    exact ⟨hitems, rfl⟩

theorem popFront_eq_none (h : q.popFront = none) : q.items = [] := by
  unfold popFront at h
  split at h
  next hitems => exact hitems
  next => cases h

theorem pushBack_of_lt (hf : q.items.length < limit) :
    (q.pushBack x).items = q.items ++ [x] ∧ (q.pushBack x).dropped = q.dropped := by
  simp [pushBack, room, roomDropped, hf]

/-- A full queue has a front to drop. -/
theorem pushBack_of_full (hf : ¬ q.items.length < limit) : ∃ front rest, q.items = front :: rest ∧
    (q.pushBack x).items = rest ++ [x] ∧ (q.pushBack x).dropped = q.dropped + 1 := by
  have hpos := q.pos
  obtain ⟨front, rest, hitems⟩ : ∃ front rest, q.items = front :: rest :=
    List.exists_cons_of_length_pos (by omega)
  refine ⟨front, rest, hitems, ?_, by simp [pushBack, roomDropped, hf]⟩
  show q.room ++ [x] = _
  rw [room, if_neg hf, hitems, List.tail_cons]

/-- **The newest are kept.** -/
theorem pushBack_items : (q.pushBack x).items = (q.items ++ [x]).drop (q.items.length + 1 - limit) := by
  have hb := q.bounded
  have hpos := q.pos
  show q.room ++ [x] = _
  unfold room
  split
  · rw [show q.items.length + 1 - limit = 0 by omega, List.drop_zero]
  · next hfull =>
    rw [show q.items.length + 1 - limit = 1 by omega, List.drop_append_of_le_length (by omega), List.drop_one]

theorem pushBack_dropped : (q.pushBack x).dropped = q.dropped + (q.items.length + 1 - limit) := by
  have hb := q.bounded
  show q.roomDropped = _
  unfold roomDropped
  split
  · omega
  · omega

theorem pushFront_items_of_full (hf : q.items.length = limit) : (q.pushFront x).items = x :: q.items.tail := by
  show x :: q.room = _
  simp [room, hf]

theorem pushFront_items_of_lt (hf : q.items.length < limit) : (q.pushFront x).items = x :: q.items := by
  show x :: q.room = _
  simp [room, hf]

theorem pushFront_dropped : (q.pushFront x).dropped = q.dropped + (q.items.length + 1 - limit) := by
  have hb := q.bounded
  show q.roomDropped = _
  unfold roomDropped
  split
  · omega
  · omega

theorem pushAllFront_length : (q.pushAllFront rs).items.length = min limit (rs.length + q.items.length) := by
  induction rs with
  | nil =>
    have := q.bounded
    show q.items.length = _
    simp
    omega
  | cons r rs ih =>
    have hb := (q.pushAllFront rs).bounded
    have hpos := q.pos
    show ((q.pushAllFront rs).pushFront r).items.length = _
    by_cases hf : (q.pushAllFront rs).items.length < limit
    · rw [pushFront_items_of_lt hf, List.length_cons, List.length_cons, ih]
      omega
    · rw [pushFront_items_of_full (by omega), List.length_cons, List.length_tail, List.length_cons, ih]
      omega

/-- Every one that has no place is counted. -/
theorem pushAllFront_dropped : (q.pushAllFront rs).dropped = q.dropped + (rs.length + q.items.length - limit) := by
  induction rs with
  | nil =>
    have := q.bounded
    show q.dropped = _
    simp
    omega
  | cons r rs ih =>
    show ((q.pushAllFront rs).pushFront r).dropped = _
    rw [pushFront_dropped, ih, pushAllFront_length, List.length_cons]
    omega

theorem pushAllFront_items_of_le (hf : rs.length + q.items.length ≤ limit) : (q.pushAllFront rs).items = rs ++ q.items := by
  induction rs with
  | nil => rfl
  | cons r rs ih =>
    rw [List.length_cons] at hf
    show ((q.pushAllFront rs).pushFront r).items = _
    have hlen := @pushAllFront_length α limit q rs
    rw [pushFront_items_of_lt (by omega), ih (by omega), List.cons_append]

/-- **Once it is full, what is pushed at the front takes the place of what was
pushed before it.** -/
theorem pushAllFront_items (hf : limit < (r :: rs).length + q.items.length) :
    (q.pushAllFront (r :: rs)).items =
      r :: (r :: rs ++ q.items).drop ((r :: rs).length + q.items.length + 1 - limit) := by
  induction rs generalizing r with
  | nil =>
    have hb := q.bounded
    simp only [List.length_singleton] at hf
    show (q.pushFront r).items = _
    rw [pushFront_items_of_full (by omega)]
    rw [show [r].length + q.items.length + 1 - limit = 2 by simp only [List.length_singleton]; omega]
    simp
  | cons r' rs ih =>
    simp only [List.length_cons] at hf
    show ((q.pushAllFront (r' :: rs)).pushFront r).items = _
    have hlen := @pushAllFront_length α limit q (r' :: rs)
    rw [pushFront_items_of_full (by simp only [List.length_cons] at hlen; omega)]
    by_cases hfit : (r' :: rs).length + q.items.length ≤ limit
    · -- It has just become full: only `r'` loses its place.
      simp only [List.length_cons] at hfit
      rw [pushAllFront_items_of_le (by simpa using hfit)]
      rw [show (r :: r' :: rs).length + q.items.length + 1 - limit = 2 by simp only [List.length_cons]; omega]
      simp
    · rw [ih (by omega)]
      simp only [List.tail_cons, List.length_cons, List.cons_append]
      simp only [List.length_cons] at hfit
      rw [show rs.length + 1 + 1 + q.items.length + 1 - limit = rs.length + 1 + q.items.length + 1 - limit + 1 by omega]
      rw [List.drop_succ_cons]

end BoundedQueue

end RetailVision.Lib
