/-
What `MqttLite` puts back into its queue when the connection is lost. The
messages in flight are walked by packet id, and each is pushed at the front of
the queue, which makes room by dropping its front: once the queue is full, the
message pushed before. So the newest messages are kept in their order where
all of them fit and the packet ids are in the order of the sends, and hardly
elsewhere (`requeue_newest_iff`).
-/
import RetailVision.MqttLite

set_option linter.all false

namespace RetailVision.MqttLite

open Lib

/-- The messages that are to be sent again, in the order they were sent. -/
def State.unacked (s : State) : List Msg := toRetry s.inflight.entries

/-- The same, in the order of their packet ids. -/
def State.byPid (s : State) : List Msg := toRetry s.inflight.byPid

/-- The newest `kQueueLimit` of some messages. -/
def newest (ms : List Msg) : List Msg := ms.drop (ms.length - kQueueLimit)

/-- When the requeue keeps the newest messages, in order. -/
def State.KeepsNewest (s : State) : Prop :=
  let free := kQueueLimit - s.queue.items.length
  let k := s.unacked.length
  -- All fit, and the packet ids are in the order of the sends.
  if k ≤ free then s.byPid = s.unacked
  -- There is no room at all: what is pushed last is what it takes the place of.
  else if free = 0 then s.byPid.head? = s.queue.items.head?
  -- The one of the least packet id, with those that have kept their place, are the newest.
  else s.byPid.head?.toList ++ s.byPid.drop (k - free + 1) = s.unacked.drop (k - free)

variable {topicRoot : String} {s : State}

theorem toRetry_perm {es es' : List Pending} (h : es.Perm es') : (toRetry es).Perm (toRetry es') :=
  (h.filter _).map _

theorem byPid_perm : s.byPid.Perm s.unacked := toRetry_perm (List.perm_insertionSort ..)

/-- The steps of the IO thread, with nothing published in between, come to `requeue`. -/
theorem run_requeue {todo : List Msg} (hp : s.place = .requeueing todo) :
    run (step topicRoot) s (List.replicate todo.length .pushFront ++ [.clear]) = some { s with
      queue := s.queue.pushAllFront todo.reverse, inflight := .empty, place := .waiting } := by
  induction todo generalizing s with
  | nil => simp [run, step, hp, BoundedQueue.pushAllFront]
  | cons m todo ih =>
    rw [List.length_cons, List.replicate_succ, List.cons_append]
    refine run_cons.mpr ⟨{ s with queue := s.queue.pushFront m, place := .requeueing todo }, by simp [step, hp], ?_⟩
    rw [ih rfl]
    simp [BoundedQueue.pushAllFront]

theorem run_lose : run (step topicRoot) s.lose (List.replicate s.byPid.length .pushFront ++ [.clear]) = some s.requeue := by
  have hrun := @run_requeue topicRoot s.lose (toRetry s.inflight.byPid).reverse rfl
  rw [List.length_reverse, List.reverse_reverse] at hrun
  exact hrun

/-- What has no place in the queue is counted. -/
theorem requeue_dropped : s.requeue.queue.dropped =
    s.queue.dropped + ((s.unacked ++ s.queue.items).length - (newest (s.unacked ++ s.queue.items)).length) := by
  have hlen : s.byPid.length = s.unacked.length := byPid_perm.length_eq
  show (s.queue.pushAllFront s.byPid).dropped = _
  rw [BoundedQueue.pushAllFront_dropped, newest, List.length_drop, hlen, List.length_append]
  omega

/-- **After the requeue the queue is the newest messages**, in flight and
queued, exactly where `KeepsNewest` holds; all that is not kept is counted. -/
theorem requeue_newest_iff :
    (s.requeue.queue.items = newest (s.unacked ++ s.queue.items) ∧
      s.requeue.queue.dropped =
        s.queue.dropped + ((s.unacked ++ s.queue.items).length - (newest (s.unacked ++ s.queue.items)).length)) ↔
      s.KeepsNewest := by
  have hlen : s.byPid.length = s.unacked.length := byPid_perm.length_eq
  have hb := s.queue.bounded
  have hpos : 0 < kQueueLimit := by decide
  rw [and_iff_left requeue_dropped]
  show (s.queue.pushAllFront s.byPid).items = _ ↔ _
  unfold State.KeepsNewest newest
  rw [List.length_append]
  dsimp only
  split
  · next hfit =>
    rw [BoundedQueue.pushAllFront_items_of_le (by omega)]
    rw [show s.unacked.length + s.queue.items.length - kQueueLimit = 0 by omega, List.drop_zero, List.append_left_inj]
  · next hover =>
    cases hr : s.byPid with
    | nil =>
      rw [hr] at hlen
      simp only [List.length_nil] at hlen
      omega
    | cons r rs =>
      rw [hr] at hlen
      rw [BoundedQueue.pushAllFront_items (by omega), hlen]
      split
      · next hfull =>
        rw [show s.unacked.length + s.queue.items.length + 1 - kQueueLimit = s.unacked.length + 1 by omega]
        rw [show s.unacked.length + s.queue.items.length - kQueueLimit = s.unacked.length by omega]
        rw [List.drop_left, ← hlen]
        cases hq : s.queue.items with
        | nil =>
          rw [hq] at hfull
          simp only [List.length_nil] at hfull
          omega
        | cons x xs => simp
      · next hroom =>
        have hle : s.unacked.length + s.queue.items.length - kQueueLimit ≤ s.unacked.length := by omega
        rw [List.drop_append_of_le_length hle]
        rw [List.drop_append_of_le_length (by omega)]
        rw [← List.cons_append, List.append_left_inj]
        rw [show s.unacked.length - (kQueueLimit - s.queue.items.length) + 1 =
          s.unacked.length + s.queue.items.length + 1 - kQueueLimit by omega]
        rw [show s.unacked.length - (kQueueLimit - s.queue.items.length) =
          s.unacked.length + s.queue.items.length - kQueueLimit by omega]
        rw [List.head?_cons, Option.toList_some, List.singleton_append]

/-- Two messages in flight across the wrap of the packet ids. -/
def wrapped : State :=
  { start with
    inflight :=
      { entries := [⟨65535, ⟨"vb/events/a", "first", 1, false, false, some 0⟩, 0⟩,
          ⟨1, ⟨"vb/events/a", "second", 1, false, false, some 1⟩, 0⟩]
        nodup := by decide }
    nextPid := 2
    accepted := 2 }

/-- The second is put back before the first. -/
theorem requeue_reorders : wrapped.requeue.queue.items.map (·.payload) = ["second", "first"] ∧
    wrapped.unacked.map (·.payload) = ["first", "second"] ∧
    wrapped.requeue.queue.items ≠ newest (wrapped.unacked ++ wrapped.queue.items) := by
  refine ⟨rfl, rfl, fun h => ?_⟩
  have horigin : [some 1, some 0] = [some 0, some 1] := congrArg (List.map Msg.origin) h
  simp at horigin

/-- **A queue with no room loses its oldest message to the one in flight with
the least packet id**, and the others in flight are lost. -/
theorem requeue_of_full (hfull : s.queue.items.length = kQueueLimit) {m : Msg} {ms : List Msg} (hm : s.byPid = m :: ms) :
    s.requeue.queue.items = m :: s.queue.items.tail := by
  have hpos : 0 < kQueueLimit := by decide
  show (s.queue.pushAllFront s.byPid).items = _
  rw [hm, BoundedQueue.pushAllFront_items (by rw [List.length_cons]; omega), hfull]
  rw [show (m :: ms).length + kQueueLimit + 1 - kQueueLimit = (m :: ms).length + 1 by omega]
  rw [List.cons_inj_right, ← List.drop_drop, List.drop_left, List.drop_one]

end RetailVision.MqttLite
