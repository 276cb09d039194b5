/-
What becomes of the messages `MqttLite` accepts. Between two steps of the IO
thread each message is in the queue or in flight, or it is recorded what has
become of it (`Conserved`): acknowledged, written, dropped and counted, or
lost. A message is lost where a send fails that has been taken out of the
queue, and where a message sent again awaits its PUBACK when the connection is
lost; `dropped()` counts neither. So all are accounted for exactly in the runs
without such a step (`accounted_iff`).

A packet id is not used again before its message is out of flight: there is at
most one message a loop, and a loop takes five milliseconds, while a message
without a PUBACK ends the connection after five seconds (`Paced`).
-/
import RetailVision.MqttLite

set_option linter.all false

namespace RetailVision.MqttLite

open Lib

inductive Fate
  | acknowledged
  | written
  /-- for want of room in the queue, and counted -/
  | dropped
  | lost
  deriving DecidableEq

/-- What has become of a message. -/
structure Outcome where
  fate : Fate
  msg : Msg
  deriving DecidableEq

/-- The message a queue drops to make room. -/
def evicted (q : BoundedQueue Msg kQueueLimit) : List Outcome :=
  if q.items.length < kQueueLimit then [] else q.items.head?.toList.map (⟨.dropped, ·⟩)

/-- What a publish of the IO thread decides: a message of QoS 0, one whose send
fails, and one in flight whose packet id is used again. -/
def State.published (s : State) (m : Msg) (sent : Bool) : List Outcome :=
  if m.qos = 0 then [⟨if sent then .written else .lost, m⟩]
  else if sent then (s.inflight.entries.filter fun e => e.pid = s.nextPid).map (⟨.lost, ·.msg⟩)
  else [⟨.lost, m⟩]

/-- What a step decides. -/
def State.outcomes (topicRoot : String) (s : State) : Action → List Outcome
  | .publish _ _ _ _ => evicted s.queue
  | .announce sent => s.published (onlineStatus topicRoot) sent
  | .send sent => match s.place with
    | .publishing m _ => s.published m sent
    | _ => []
  | .puback pid => (s.inflight.entries.filter fun e => e.pid = pid).map (⟨.acknowledged, ·.msg⟩)
  | .pushFront => evicted s.queue
  | .clear => (s.inflight.entries.filter fun e => e.msg.retried).map (⟨.lost, ·.msg⟩)
  | _ => []

/-- The outcomes of a run, added to by each step. -/
def note (topicRoot : String) (s : State) (a : Action) (os : List Outcome) : List Outcome := os ++ s.outcomes topicRoot a

/-- How often the `n`th accepted message is among some. -/
def tally (n : Nat) (ms : List Msg) : Nat := ms.countP fun m => m.origin = some n

/-- The IO thread is between two of its steps. -/
def Place.Between : Place → Prop
  | .publishing _ _ | .requeueing _ => False
  | _ => True

/-- **Every accepted message is accounted for once**: acknowledged, written,
queued, in flight, or dropped, which is counted. -/
def Accounted (s : State) (os : List Outcome) : Prop :=
  (∀ n < s.accepted, tally n (s.queue.items ++ s.inflight.entries.map (·.msg) ++
    (os.filter fun o => o.fate ≠ .lost).map (·.msg)) = 1) ∧
    s.queue.dropped = (os.filter fun o => o.fate = .dropped).length

/-- The step does not lose an accepted message: no send of one fails, and none
is given up that has been sent again when the connection is lost. -/
def Keeps (s : State) : Action → Prop
  | .send false => match s.place with
    | .publishing m _ => m.origin = none
    | _ => True
  | .clear => ∀ e ∈ s.inflight.entries, e.msg.retried = true → e.msg.origin = none
  | _ => True

/-- The messages the client has out of its queue: while it puts them back,
those in flight that are not put back again. -/
def State.outside (s : State) : List Msg :=
  match s.place with
  | .publishing m _ => m :: s.inflight.entries.map (·.msg)
  | .requeueing todo => todo ++ (s.inflight.entries.filter fun e => e.msg.retried).map (·.msg)
  | _ => s.inflight.entries.map (·.msg)

/-- The messages the client has. -/
def State.holds (s : State) : List Msg := s.queue.items ++ s.outside

/-- No accepted message is there twice, or nowhere. -/
structure Conserved (s : State) (os : List Outcome) : Prop where
  tally : ∀ n, tally n s.holds + tally n (os.map (·.msg)) = if n < s.accepted then 1 else 0
  dropped : s.queue.dropped = (os.filter fun o => o.fate = .dropped).length

variable {topicRoot : String} {s s' t : State} {a : Action} {as : List Action} {os : List Outcome} {n pid : Nat}
  {ms ms' : List Msg} {m : Msg} {es : List Pending} {q : BoundedQueue Msg kQueueLimit}

/-! ## Tallies -/

@[simp] theorem tally_nil : tally n [] = 0 := rfl

@[simp] theorem tally_append : tally n (ms ++ ms') = tally n ms + tally n ms' := List.countP_append

theorem tally_cons : tally n (m :: ms) = tally n [m] + tally n ms := by
  show tally n ([m] ++ ms) = _
  rw [tally_append]

theorem tally_perm (h : ms.Perm ms') : tally n ms = tally n ms' := h.countP_eq _

theorem tally_own (ho : m.origin = none) : tally n [m] = 0 := by simp [tally, ho]

/-- What is left out and what is kept. -/
theorem tally_filter (p : Pending → Bool) : tally n ((es.filter fun e => p e).map (·.msg)) +
    tally n ((es.filter fun e => !p e).map (·.msg)) = tally n (es.map (·.msg)) := by
  rw [← tally_append, ← List.map_append]
  exact tally_perm ((List.filter_append_perm p es).map _)

/-- The messages of a packet id, and those in flight without it. -/
theorem tally_erase (f : Inflight) (pid : Nat) : tally n ((f.entries.filter fun e => e.pid = pid).map (·.msg)) +
    tally n ((f.erase pid).entries.map (·.msg)) = tally n (f.entries.map (·.msg)) := by
  have hrest : (f.entries.filter fun e => decide (e.pid ≠ pid)) = f.entries.filter fun e => !decide (e.pid = pid) := by
    congr 1
    funext e
    simp
  have hsplit := @tally_filter n f.entries fun e => e.pid = pid
  rw [← hrest] at hsplit
  exact hsplit

/-- The messages of what all have one outcome. -/
theorem map_outcome (fate : Fate) (es : List Pending) :
    (es.map fun e => (⟨fate, e.msg⟩ : Outcome)).map (·.msg) = es.map (·.msg) := by
  rw [List.map_map]
  rfl

theorem tally_toRetry : tally n (toRetry es) = tally n ((es.filter fun e => !e.msg.retried).map (·.msg)) := by
  simp only [toRetry, tally, List.countP_map]
  rfl

/-- A queue that makes room is what it drops, and the rest. -/
theorem evicted_append_room : (evicted q).map (·.msg) ++ q.room = q.items := by
  have hpos : 0 < kQueueLimit := by decide
  unfold evicted BoundedQueue.room
  split
  · rfl
  · next hfull =>
    cases hq : q.items with
    | nil =>
      rw [hq] at hfull
      exact absurd hpos (by simpa using hfull)
    | cons x xs => simp

theorem tally_room : tally n ((evicted q).map (·.msg)) + tally n q.room = tally n q.items := by
  rw [← tally_append, evicted_append_room]

theorem roomDropped_eq : q.roomDropped = q.dropped + (evicted q).length := by
  have hpos : 0 < kQueueLimit := by decide
  unfold evicted BoundedQueue.roomDropped
  split
  · rfl
  · next hfull =>
    cases hq : q.items with
    | nil =>
      rw [hq] at hfull
      exact absurd hpos (by simpa using hfull)
    | cons x xs => simp

theorem evicted_dropped : ∀ o ∈ evicted q, o.fate = .dropped := by
  intro o ho
  unfold evicted at ho
  split at ho
  · cases ho
  · obtain ⟨m, -, rfl⟩ := List.mem_map.mp ho
    rfl

/-- Nothing but what a queue drops is counted. -/
def Uncounted (os : List Outcome) : Prop := ∀ o ∈ os, o.fate ≠ .dropped

theorem filter_dropped_of_uncounted (h : Uncounted os) : os.filter (fun o => o.fate = .dropped) = [] := by
  rw [List.filter_eq_nil_iff]
  intro o ho
  simpa using h o ho

theorem filter_dropped_evicted : (evicted q).filter (fun o => o.fate = .dropped) = evicted q := by
  rw [List.filter_eq_self]
  intro o ho
  simpa using evicted_dropped o ho

/-! ## No message is there twice, or nowhere -/

/-- A step after which every message is where it was, or has an outcome. -/
theorem Conserved.moves {new : List Outcome} (hc : Conserved s os) (ha : s'.accepted = s.accepted)
    (ht : ∀ n, MqttLite.tally n s'.holds + MqttLite.tally n (new.map (·.msg)) = MqttLite.tally n s.holds)
    (hd : s'.queue.dropped = s.queue.dropped + (new.filter fun o => o.fate = .dropped).length) :
    Conserved s' (os ++ new) where
  tally n := by
    have hold := hc.tally n
    have hmove := ht n
    rw [ha, List.map_append, tally_append]
    omega
  dropped := by
    rw [hd, hc.dropped, List.filter_append, List.length_append]

/-- The same where nothing has an outcome. -/
theorem Conserved.stays (hc : Conserved s os) (ha : s'.accepted = s.accepted) (hq : s'.queue.dropped = s.queue.dropped)
    (ht : ∀ n, MqttLite.tally n s'.holds = MqttLite.tally n s.holds) : Conserved s' (os ++ []) :=
  hc.moves ha (fun n => by rw [List.map_nil, tally_nil, ht]; omega) (by rw [hq]; rfl)

/-- The messages in flight are those to be put back and those to be given up. -/
theorem tally_lose : tally n s.lose.holds = tally n s.queue.items + tally n (s.inflight.entries.map (·.msg)) := by
  have hretry : tally n (toRetry s.inflight.byPid).reverse = tally n (toRetry s.inflight.entries) := by
    refine tally_perm ((List.reverse_perm _).trans ?_)
    exact ((List.perm_insertionSort _ _).filter _).map _
  have hsplit := @tally_filter n s.inflight.entries fun e => e.msg.retried
  show tally n (s.queue.items ++ ((toRetry s.inflight.byPid).reverse ++
    (s.inflight.entries.filter fun e => e.msg.retried).map (·.msg))) = _
  rw [tally_append, tally_append, hretry, tally_toRetry]
  omega

/-- A published message is in flight, or it is decided what becomes of it. -/
theorem tally_publishNow {sent : Bool} : tally n ((s.publishNow m sent).inflight.entries.map (·.msg)) +
    tally n ((s.published m sent).map (·.msg)) = tally n (s.inflight.entries.map (·.msg)) + tally n [m] := by
  unfold State.publishNow State.published
  by_cases hq : m.qos = 0
  · simp [hq]
  · rw [if_neg hq, if_neg hq]
    cases sent with
    | false => simp
    | true =>
      have hsplit := @tally_erase n s.inflight s.nextPid
      simp only [if_true, Inflight.set, List.map_append, List.map_cons, List.map_nil, tally_append]
      rw [map_outcome]
      omega

@[simp] theorem publishNow_queue {sent : Bool} : (s.publishNow m sent).queue = s.queue := by
  unfold State.publishNow
  split
  · rfl
  · cases sent <;> rfl

@[simp] theorem publishNow_accepted {sent : Bool} : (s.publishNow m sent).accepted = s.accepted := by
  unfold State.publishNow
  split
  · rfl
  · cases sent <;> rfl

theorem published_uncounted {sent : Bool} : Uncounted (s.published m sent) := by
  intro o ho
  unfold State.published at ho
  split at ho
  · rw [List.mem_singleton.mp ho]
    cases sent <;> simp
  · split at ho
    · obtain ⟨e, -, rfl⟩ := List.mem_map.mp ho
      simp
    · rw [List.mem_singleton.mp ho]
      simp

/-- What the client has where it is between two steps. -/
theorem holds_of_between (hb : s.place.Between) : s.holds = s.queue.items ++ s.inflight.entries.map (·.msg) := by
  unfold State.holds State.outside
  cases hp : s.place with
  | publishing | requeueing =>
    rw [hp] at hb
    exact hb.elim
  | _ => rfl

/-- The client after a publish, sent or not. -/
theorem Conserved.published {sent : Bool} {place : Place} (hc : Conserved s os) (hb : place.Between)
    (hh : ∀ n, MqttLite.tally n s.holds =
      MqttLite.tally n s.queue.items + MqttLite.tally n (s.inflight.entries.map (·.msg)) + MqttLite.tally n [m]) :
    Conserved (if sent then { s.publishNow m sent with place := place } else (s.publishNow m sent).lose)
      (os ++ s.published m sent) := by
  have hq : (if sent then { s.publishNow m sent with place := place } else (s.publishNow m sent).lose).queue = s.queue := by
    split
    · exact publishNow_queue
    · exact publishNow_queue
  refine hc.moves ?_ (fun n => ?_) ?_
  · split
    · exact publishNow_accepted
    · exact publishNow_accepted
  · have hmove := @tally_publishNow s n m sent
    have hnew : MqttLite.tally n (if sent then { s.publishNow m sent with place := place } else (s.publishNow m sent).lose).holds =
        MqttLite.tally n s.queue.items + MqttLite.tally n ((s.publishNow m sent).inflight.entries.map (·.msg)) := by
      split
      · rw [holds_of_between hb, tally_append]
        rw [show ({ s.publishNow m sent with place := place } : State).queue = s.queue from publishNow_queue]
      · rw [tally_lose, publishNow_queue]
    rw [hnew, hh]
    omega
  · rw [hq, filter_dropped_of_uncounted published_uncounted]
    rfl

/-- The IO thread goes on, between two steps before and after. -/
theorem Conserved.goes {place : Place} (hc : Conserved s os) (hb : s.place.Between) (hb' : place.Between) :
    Conserved { s with place := place } (os ++ []) := by
  refine hc.stays rfl rfl fun n => ?_
  rw [holds_of_between hb, holds_of_between (s := { s with place := place }) hb']

/-- The IO thread loses the connection between two steps. -/
theorem Conserved.loses (hc : Conserved s os) (hb : s.place.Between) : Conserved s.lose (os ++ []) := by
  refine hc.stays rfl rfl fun n => ?_
  rw [holds_of_between hb, tally_lose, tally_append]

theorem Conserved.publish {topicSuffix payload : String} {qos : Nat} {retain : Bool} (hc : Conserved s os)
    (hs : step topicRoot s (.publish topicSuffix payload qos retain) = some s') : Conserved s' (os ++ evicted s.queue) := by
  cases hs
  constructor
  case tally =>
    intro n
    have hold := hc.tally n
    have hroom := @tally_room n s.queue
    have hone : MqttLite.tally n [⟨topicRoot ++ "/" ++ topicSuffix, payload, qos, retain, false, some s.accepted⟩] =
        if n = s.accepted then 1 else 0 := by
      by_cases hn : n = s.accepted
      · simp [MqttLite.tally, hn]
      · simp [MqttLite.tally, hn, Ne.symm hn]
    show MqttLite.tally n (s.queue.room ++ [_] ++ s.outside) + _ = if n < s.accepted + 1 then 1 else 0
    rw [State.holds, tally_append] at hold
    rw [tally_append, tally_append, List.map_append, tally_append, hone]
    split at hold
    · rw [if_neg (by omega), if_pos (by omega)]
      omega
    · by_cases hn : n = s.accepted
      · rw [if_pos hn, if_pos (by omega)]
        omega
      · rw [if_neg hn, if_neg (by omega)]
        omega
  case dropped =>
    show s.queue.roomDropped = _
    rw [roomDropped_eq, hc.dropped, List.filter_append, List.length_append, filter_dropped_evicted]

/-- A message is put back. -/
theorem Conserved.pushFront {todo : List Msg} (hc : Conserved s os) (hp : s.place = .requeueing (m :: todo)) :
    Conserved { s with queue := s.queue.pushFront m, place := .requeueing todo } (os ++ evicted s.queue) := by
  refine hc.moves rfl (fun n => ?_) ?_
  · have hroom := @tally_room n s.queue
    let given := (s.inflight.entries.filter fun e => e.msg.retried).map (·.msg)
    have hbefore := @tally_cons n (todo ++ given) m
    have hafter := @tally_cons n (s.queue.room ++ (todo ++ given)) m
    simp only [State.holds, State.outside, hp, BoundedQueue.pushFront, List.cons_append, tally_append]
    rw [hafter, hbefore, tally_append]
    omega
  · show s.queue.roomDropped = _
    rw [roomDropped_eq, filter_dropped_evicted]

/-- What was sent again before is given up. -/
theorem Conserved.clear (hc : Conserved s os) (hp : s.place = .requeueing []) :
    Conserved { s with inflight := .empty, place := .waiting }
      (os ++ (s.inflight.entries.filter fun e => e.msg.retried).map (⟨.lost, ·.msg⟩)) := by
  refine hc.moves rfl (fun n => ?_) ?_
  · simp only [State.holds, State.outside, hp, Inflight.empty, List.map_nil, List.append_nil, List.nil_append,
      tally_append, List.map_map]
    rfl
  · rw [filter_dropped_of_uncounted]
    · rfl
    · intro o ho
      obtain ⟨e, -, rfl⟩ := List.mem_map.mp ho
      simp

/-- A PUBACK ends the flight of its message. -/
theorem Conserved.puback {now : Nat} (hc : Conserved s os) (hp : s.place = .reading now) :
    Conserved { s with inflight := s.inflight.erase pid }
      (os ++ (s.inflight.entries.filter fun e => e.pid = pid).map (⟨.acknowledged, ·.msg⟩)) := by
  refine hc.moves rfl (fun n => ?_) ?_
  · have hsplit := @tally_erase n s.inflight pid
    simp only [State.holds, State.outside, hp, tally_append]
    rw [map_outcome]
    omega
  · rw [filter_dropped_of_uncounted]
    · rfl
    · intro o ho
      obtain ⟨e, -, rfl⟩ := List.mem_map.mp ho
      simp

/-- The queue's oldest message is taken out to be published. -/
theorem Conserved.take {now : Nat} {q : BoundedQueue Msg kQueueLimit} (hc : Conserved s os) (hb : s.place.Between)
    (hq : s.queue.popFront = some (m, q)) :
    Conserved { s with queue := q, place := .publishing m now } (os ++ []) := by
  obtain ⟨hitems, hdropped⟩ := BoundedQueue.popFront_eq_some hq
  refine hc.stays rfl hdropped fun n => ?_
  rw [holds_of_between hb, hitems]
  show MqttLite.tally n (q.items ++ m :: s.inflight.entries.map (·.msg)) = _
  rw [tally_append, tally_cons, tally_append, @tally_cons n q.items m]
  omega

/-- **Each step conserves the messages.** -/
theorem step_conserved (hc : Conserved s os) (hs : step topicRoot s a = some s') : Conserved s' (note topicRoot s a os) := by
  unfold note
  cases a <;> simp only [step] at hs
  case publish topicSuffix payload qos retain => exact hc.publish hs
  case tick d =>
    cases hs
    exact hc.stays rfl rfl fun _ => rfl
  case connect ok =>
    split at hs <;> cases hs
    next hp =>
    have hb : s.place.Between := by rw [hp]; trivial
    split
    · exact hc.goes hb trivial
    · exact hc.loses hb
  case announce sent =>
    split at hs <;> cases hs
    next hp =>
    have hb : s.place.Between := by rw [hp]; trivial
    refine hc.published trivial fun n => ?_
    have hown : MqttLite.tally n [onlineStatus topicRoot] = 0 := tally_own rfl
    rw [holds_of_between hb, tally_append, hown, Nat.add_zero]
  case take =>
    split at hs
    · next hp =>
      have hb : s.place.Between := by rw [hp]; trivial
      split at hs
      · cases hs
        exact hc.goes hb trivial
      · split at hs <;> cases hs
        · exact hc.goes hb trivial
        · next hq => exact hc.take hb hq
    · cases hs
  case send sent =>
    split at hs <;> cases hs
    next m now hp =>
    simp only [State.outcomes, hp]
    refine hc.published trivial fun n => ?_
    simp only [State.holds, State.outside, hp, tally_append]
    rw [tally_cons]
    omega
  case checkTimeouts =>
    split at hs <;> cases hs
    next hp =>
    have hb : s.place.Between := by rw [hp]; trivial
    split
    · exact hc.loses hb
    · exact hc.goes hb trivial
  case puback pid =>
    split at hs <;> cases hs
    next hp => exact hc.puback hp
  case readEnds ok =>
    split at hs <;> cases hs
    next hp =>
    have hb : s.place.Between := by rw [hp]; trivial
    split
    · exact hc.goes hb trivial
    · exact hc.loses hb
  case wake =>
    split at hs
    · next hp =>
      have hb : s.place.Between := by rw [hp]; trivial
      split at hs <;> cases hs
      exact hc.goes hb trivial
    · cases hs
  case pushFront =>
    split at hs <;> cases hs
    next hp => exact hc.pushFront hp
  case clear =>
    split at hs <;> cases hs
    next hp => exact hc.clear hp
  case reconnect =>
    split at hs <;> cases hs
    next hp =>
    have hb : s.place.Between := by rw [hp]; trivial
    exact hc.goes hb trivial

/-! ## Packet ids -/

/-- How many packet ids were given out from this one on. -/
def State.since (s : State) (pid : Nat) : Nat := (s.nextPid + 65535 - pid) % 65535

/-- The messages in flight, of which each but the newest `slack` was sent a
loop's time before the one after it, up to `t`. -/
def State.Spaced (s : State) (slack bound t : Nat) : Prop :=
  ∀ e ∈ s.inflight.entries, 1 ≤ s.since e.pid ∧ s.since e.pid ≤ bound ∧ (slack ≤ s.since e.pid → e.sentAt ≤ t) ∧
    kLoopSleep * (s.since e.pid - slack) ≤ t - e.sentAt

/-- Messages are sent a loop apart, and none is in flight for longer than a
PUBACK may take. -/
structure Paced (s : State) : Prop where
  next : 1 ≤ s.nextPid ∧ s.nextPid ≤ 65535
  pids : ∀ e ∈ s.inflight.entries, 1 ≤ e.pid ∧ e.pid ≤ 65535
  sent : ∀ e ∈ s.inflight.entries, e.sentAt ≤ s.now
  spaced : match s.place with
    | .connecting | .announcing | .waiting => s.inflight.entries = []
    | .looping => s.Spaced 1 1001 s.now
    | .publishing _ now => now ≤ s.now ∧ s.Spaced 1 1001 now
    | .draining now => now ≤ s.now ∧ s.Spaced 2 1002 now
    | .reading now | .sleeping now => now ≤ s.now ∧ s.Spaced 2 1001 now
    | .requeueing _ => True

variable {slack bound now : Nat} {e : Pending}

/-- The packet id to be given out next is not in flight. -/
theorem State.Spaced.fresh (hsp : s.Spaced slack bound now) :
    (s.inflight.entries.filter fun e => e.pid = s.nextPid) = [] := by
  rw [List.filter_eq_nil_iff]
  intro e he
  have hd := (hsp e he).1
  simp only [State.since] at hd
  simp only [decide_eq_true_eq]
  omega

/-- What holds of all in flight holds of some of them. -/
theorem State.Spaced.subset (hsp : s.Spaced slack bound now) (hpid : s'.nextPid = s.nextPid)
    (hsub : ∀ e ∈ s'.inflight.entries, e ∈ s.inflight.entries) : s'.Spaced slack bound now := by
  intro e he
  have := hsp e (hsub e he)
  simpa [State.since, hpid] using this

/-- Time passes, or one more has been sent. -/
theorem State.Spaced.mono {slack' bound' now' : Nat} (hsp : s.Spaced slack bound now) (hs : slack ≤ slack')
    (hb : bound ≤ bound') (hnow : now ≤ now') : s.Spaced slack' bound' now' := by
  intro e he
  obtain ⟨h1, hbound, hle, hspace⟩ := hsp e he
  simp only [kLoopSleep] at hspace ⊢
  refine ⟨h1, by omega, fun h => ?_, by omega⟩
  have := hle (by omega)
  omega

/-- A message goes into flight. -/
theorem State.Spaced.publishNow (hpc : Paced s) (hsp : s.Spaced 1 1001 now) (hq : m.qos ≠ 0) :
    (s.publishNow m true).Spaced 2 1002 now := by
  have hn := hpc.next
  simp only [State.publishNow, if_neg hq, if_true]
  intro e he
  rcases List.mem_append.mp he with he | he
  · have hold := (List.mem_filter.mp he).1
    obtain ⟨h1, hbound, hle, hspace⟩ := hsp e hold
    have hpid := hpc.pids e hold
    simp only [State.since, nextPidAfter, kLoopSleep] at h1 hbound hle hspace ⊢
    have hnext : (s.nextPid % 65535 + 1 + 65535 - e.pid) % 65535 = (s.nextPid + 65535 - e.pid) % 65535 + 1 := by omega
    rw [hnext]
    exact ⟨by omega, by omega, fun _ => hle h1, by omega⟩
  · rw [List.mem_singleton.mp he]
    simp only [State.since, nextPidAfter, kLoopSleep]
    have hone : (s.nextPid % 65535 + 1 + 65535 - s.nextPid) % 65535 = 1 := by omega
    rw [hone]
    exact ⟨le_rfl, by omega, fun h => by omega, by omega⟩

/-- What `publish_now` leaves of the pace. -/
theorem Paced.publishNow {sent : Bool} (hpc : Paced s) : (1 ≤ (s.publishNow m sent).nextPid ∧
    (s.publishNow m sent).nextPid ≤ 65535) ∧
      (∀ e ∈ (s.publishNow m sent).inflight.entries, (1 ≤ e.pid ∧ e.pid ≤ 65535) ∧ e.sentAt ≤ s.now) := by
  have hn := hpc.next
  have hold : ∀ e ∈ s.inflight.entries, (1 ≤ e.pid ∧ e.pid ≤ 65535) ∧ e.sentAt ≤ s.now :=
    fun e he => ⟨hpc.pids e he, hpc.sent e he⟩
  unfold State.publishNow
  split
  · exact ⟨hn, hold⟩
  · have hnext : 1 ≤ nextPidAfter s.nextPid ∧ nextPidAfter s.nextPid ≤ 65535 := by
      unfold nextPidAfter
      omega
    cases sent with
    | false => exact ⟨hnext, hold⟩
    | true =>
      refine ⟨hnext, fun e he => ?_⟩
      rcases List.mem_append.mp he with he | he
      · exact hold e (List.mem_filter.mp he).1
      · rw [List.mem_singleton.mp he]
        exact ⟨hn, le_rfl⟩

/-- The pace of a client whose connection is lost. -/
theorem Paced.lose (hn : 1 ≤ s.nextPid ∧ s.nextPid ≤ 65535)
    (he : ∀ e ∈ s.inflight.entries, (1 ≤ e.pid ∧ e.pid ≤ 65535) ∧ e.sentAt ≤ s.now) : Paced s.lose :=
  ⟨hn, fun e h => (he e h).1, fun e h => (he e h).2, trivial⟩

theorem Paced.loses (hpc : Paced s) : Paced s.lose := .lose hpc.next fun e he => ⟨hpc.pids e he, hpc.sent e he⟩

@[simp] theorem publishNow_now {sent : Bool} : (s.publishNow m sent).now = s.now := by
  unfold State.publishNow
  split
  · rfl
  · cases sent <;> rfl

theorem step_paced (hpc : Paced s) (hs : step topicRoot s a = some s') : Paced s' := by
  have hspaced := hpc.spaced
  cases a <;> simp only [step] at hs
  case publish topicSuffix payload qos retain =>
    cases hs
    exact ⟨hpc.next, hpc.pids, hpc.sent, hspaced⟩
  case tick d =>
    cases hs
    refine ⟨hpc.next, hpc.pids, fun e he => Nat.le_add_right_of_le (hpc.sent e he), ?_⟩
    dsimp only
    split at hspaced
    · exact hspaced
    · exact hspaced
    · exact hspaced
    · exact State.Spaced.mono hspaced le_rfl le_rfl (Nat.le_add_right ..)
    · exact ⟨Nat.le_add_right_of_le hspaced.1, hspaced.2⟩
    · exact ⟨Nat.le_add_right_of_le hspaced.1, hspaced.2⟩
    · exact ⟨Nat.le_add_right_of_le hspaced.1, hspaced.2⟩
    · exact ⟨Nat.le_add_right_of_le hspaced.1, hspaced.2⟩
    · trivial
  case connect ok =>
    split at hs <;> cases hs
    next hp =>
    rw [hp] at hspaced
    split
    · exact ⟨hpc.next, hpc.pids, hpc.sent, hspaced⟩
    · exact hpc.loses
  case announce sent =>
    split at hs <;> cases hs
    next hp =>
    rw [hp] at hspaced
    obtain ⟨hnext, hall⟩ := @Paced.publishNow s (onlineStatus topicRoot) sent hpc
    cases sent with
    | false => exact .lose hnext fun e he => by rw [publishNow_now]; exact hall e he
    | true =>
      refine ⟨hnext, fun e he => (hall e he).1, fun e he => ?_, ?_⟩
      · show e.sentAt ≤ (s.publishNow _ true).now
        rw [publishNow_now]
        exact (hall e he).2
      · show State.Spaced _ 1 1001 (s.publishNow _ true).now
        rw [publishNow_now]
        -- Only the status is in flight.
        have hempty : s.Spaced 1 1001 s.now := by
          intro e he
          rw [hspaced] at he
          cases he
        have hsp := State.Spaced.publishNow (m := onlineStatus topicRoot) hpc hempty (by simp [onlineStatus])
        intro e he
        obtain ⟨h1, -, -, -⟩ := hsp e he
        have hin : e ∈ (s.inflight.erase s.nextPid).entries ++ [⟨s.nextPid, onlineStatus topicRoot, s.now⟩] := he
        have herase : (s.inflight.erase s.nextPid).entries = [] := by simp [Inflight.erase, hspaced]
        rw [herase, List.nil_append] at hin
        obtain rfl := List.mem_singleton.mp hin
        have hn := hpc.next
        have hone : (s.nextPid % 65535 + 1 + 65535 - s.nextPid) % 65535 = 1 := by omega
        simp only [State.since, State.publishNow, onlineStatus, nextPidAfter, if_true, kLoopSleep]
        rw [if_neg (by omega), hone]
        exact ⟨le_rfl, by omega, fun _ => le_rfl, by omega⟩
  case take =>
    split at hs
    · next hp =>
      rw [hp] at hspaced
      have hdrain : s.Spaced 2 1002 s.now := State.Spaced.mono hspaced (by omega) (by omega) le_rfl
      split at hs
      · cases hs
        exact ⟨hpc.next, hpc.pids, hpc.sent, le_rfl, hdrain⟩
      · split at hs <;> cases hs
        · exact ⟨hpc.next, hpc.pids, hpc.sent, le_rfl, hdrain⟩
        · exact ⟨hpc.next, hpc.pids, hpc.sent, le_rfl, hspaced⟩
    · cases hs
  case send sent =>
    split at hs <;> cases hs
    next m now hp =>
    rw [hp] at hspaced
    obtain ⟨hle, hsp⟩ := hspaced
    obtain ⟨hnext, hall⟩ := @Paced.publishNow s m sent hpc
    cases sent with
    | false => exact .lose hnext fun e he => by rw [publishNow_now]; exact hall e he
    | true =>
      refine ⟨hnext, fun e he => (hall e he).1, fun e he => ?_, ?_, ?_⟩
      · show e.sentAt ≤ (s.publishNow m true).now
        rw [publishNow_now]
        exact (hall e he).2
      · show now ≤ (s.publishNow m true).now
        rw [publishNow_now]
        exact hle
      · by_cases hq : m.qos = 0
        · have hsame : s.publishNow m true = s := by simp [State.publishNow, hq]
          show State.Spaced (s.publishNow m true) 2 1002 now
          rw [hsame]
          exact State.Spaced.mono hsp (by omega) (by omega) le_rfl
        · exact State.Spaced.publishNow hpc hsp hq
  case checkTimeouts =>
    split at hs <;> cases hs
    next now hp =>
    rw [hp] at hspaced
    obtain ⟨hle, hsp⟩ := hspaced
    split
    · exact hpc.loses
    · next hno =>
      refine ⟨hpc.next, hpc.pids, hpc.sent, hle, fun e he => ?_⟩
      obtain ⟨h1, hbound, hsent, hspace⟩ := hsp e he
      have hshort : ¬ kPubackTimeout ≤ now - e.sentAt := by
        intro htime
        exact hno (List.any_eq_true.mpr ⟨e, he, by simpa using htime⟩)
      simp only [kPubackTimeout, kLoopSleep] at hshort hspace ⊢
      exact ⟨h1, by simp only [State.since] at hspace ⊢; omega, hsent, hspace⟩
  case puback pid =>
    split at hs <;> cases hs
    next now hp =>
    rw [hp] at hspaced
    have hsub : ∀ e ∈ (s.inflight.erase pid).entries, e ∈ s.inflight.entries := fun e he => (List.mem_filter.mp he).1
    refine ⟨hpc.next, fun e he => hpc.pids e (hsub e he), fun e he => hpc.sent e (hsub e he), ?_⟩
    dsimp only
    rw [hp]
    exact ⟨hspaced.1, State.Spaced.subset hspaced.2 rfl hsub⟩
  case readEnds ok =>
    split at hs <;> cases hs
    next now hp =>
    rw [hp] at hspaced
    split
    · exact ⟨hpc.next, hpc.pids, hpc.sent, le_rfl, State.Spaced.mono hspaced.2 le_rfl le_rfl hspaced.1⟩
    · exact hpc.loses
  case wake =>
    split at hs
    · next since hp =>
      rw [hp] at hspaced
      split at hs <;> cases hs
      next hslept =>
      refine ⟨hpc.next, hpc.pids, hpc.sent, fun e he => ?_⟩
      obtain ⟨h1, hbound, hsent, hspace⟩ := hspaced.2 e he
      have hnow := hpc.sent e he
      simp only [kLoopSleep] at hslept hspace ⊢
      refine ⟨h1, hbound, fun _ => hnow, ?_⟩
      by_cases htwo : 2 ≤ s.since e.pid
      · have := hsent htwo
        simp only [State.since] at htwo hspace ⊢
        omega
      · simp only [State.since] at htwo ⊢
        omega
    · cases hs
  case pushFront =>
    split at hs <;> cases hs
    exact ⟨hpc.next, hpc.pids, hpc.sent, trivial⟩
  case clear =>
    split at hs <;> cases hs
    refine ⟨hpc.next, fun e he => ?_, fun e he => ?_, rfl⟩
    · cases he
    · cases he
  case reconnect =>
    split at hs <;> cases hs
    next hp =>
    rw [hp] at hspaced
    exact ⟨hpc.next, hpc.pids, hpc.sent, hspaced⟩

theorem start_paced : Paced start where
  next := by decide
  pids _ he := by cases he
  sent _ he := by cases he
  spaced := rfl

theorem start_conserved : Conserved start [] where
  tally _ := by simp [State.holds, State.outside, start, BoundedQueue.empty, Inflight.empty]
  dropped := rfl

/-! ## What is lost -/

/-- No accepted message is lost. -/
def NoLoss (os : List Outcome) : Prop := ∀ o ∈ os, o.fate = .lost → o.msg.origin = none

theorem noLoss_append {os' : List Outcome} : NoLoss (os ++ os') ↔ NoLoss os ∧ NoLoss os' := by
  simp only [NoLoss, List.mem_append, or_imp, forall_and]

theorem noLoss_evicted : NoLoss (evicted q) := by
  intro o ho hl
  rw [evicted_dropped o ho] at hl
  cases hl

/-- A step loses no accepted message exactly where it keeps them. -/
theorem noLoss_outcomes_iff (hpc : Paced s) (hs : step topicRoot s a = some s') :
    NoLoss (s.outcomes topicRoot a) ↔ Keeps s a := by
  have hspaced := hpc.spaced
  cases a <;> simp only [step] at hs
  case publish topicSuffix payload qos retain =>
    simp only [State.outcomes, Keeps, iff_true]
    exact noLoss_evicted
  case pushFront =>
    simp only [State.outcomes, Keeps, iff_true]
    exact noLoss_evicted
  case announce sent =>
    split at hs <;> cases hs
    next hp =>
    rw [hp] at hspaced
    simp only [State.outcomes, Keeps, iff_true]
    intro o ho hl
    cases sent with
    | false => simp_all [State.published, onlineStatus]
    | true => simp_all [State.published, onlineStatus]
  case send sent =>
    split at hs <;> cases hs
    next m now hp =>
    rw [hp] at hspaced
    simp only [State.outcomes, hp]
    cases sent with
    | false =>
      have hlost : s.published m false = [⟨.lost, m⟩] := by
        unfold State.published
        split
        · rfl
        · rfl
      simp [NoLoss, hlost, Keeps, hp]
    | true =>
      have hnone : NoLoss (s.published m true) := by
        intro o ho hl
        unfold State.published at ho
        rw [hspaced.2.fresh] at ho
        split at ho
        · rw [List.mem_singleton.mp ho] at hl
          cases hl
        · cases ho
      simp [hnone, Keeps]
  case puback pid =>
    simp only [State.outcomes, Keeps, iff_true]
    intro o ho hl
    obtain ⟨e, -, rfl⟩ := List.mem_map.mp ho
    cases hl
  case clear =>
    simp only [State.outcomes, Keeps]
    constructor
    · intro hno e he hre
      exact hno ⟨.lost, e.msg⟩ (List.mem_map.mpr ⟨e, List.mem_filter.mpr ⟨he, hre⟩, rfl⟩) rfl
    · intro hkeep o ho _
      obtain ⟨e, he, rfl⟩ := List.mem_map.mp ho
      obtain ⟨he, hre⟩ := List.mem_filter.mp he
      exact hkeep e he hre
  all_goals simp [State.outcomes, Keeps, NoLoss]

theorem run_noLoss_iff {os' : List Outcome} (hpc : Paced s)
    (hr : run (traced (step topicRoot) (note topicRoot)) (s, os) as = some (t, os')) :
    NoLoss os' ↔ NoLoss os ∧ Meets (step topicRoot) Keeps s as := by
  induction as generalizing s os with
  | nil =>
    cases hr
    exact (and_iff_left trivial).symm
  | cons a as ih =>
    obtain ⟨⟨s', os₁⟩, hs, hr⟩ := run_cons.mp hr
    obtain ⟨hstep, rfl⟩ := traced_eq_some.mp hs
    rw [ih (step_paced hpc hstep) hr, note, noLoss_append, noLoss_outcomes_iff hpc hstep, and_assoc, meets_cons]
    simp [hstep]

/-- What is not lost and what is. -/
theorem tally_outcomes : tally n ((os.filter fun o => o.fate ≠ .lost).map (·.msg)) +
    tally n ((os.filter fun o => o.fate = .lost).map (·.msg)) = tally n (os.map (·.msg)) := by
  rw [← tally_append, ← List.map_append]
  refine tally_perm (List.Perm.map _ ?_)
  have hperm := List.filter_append_perm (fun o : Outcome => decide (o.fate ≠ .lost)) os
  simpa using hperm

/-- Between two steps of the IO thread, all is accounted for exactly where
nothing has been lost. -/
theorem accounted_iff_noLoss (hc : Conserved s os) (hb : s.place.Between) : Accounted s os ↔ NoLoss os := by
  have hsum : ∀ n, tally n (s.queue.items ++ s.inflight.entries.map (·.msg) ++
      (os.filter fun o => o.fate ≠ .lost).map (·.msg)) +
        tally n ((os.filter fun o => o.fate = .lost).map (·.msg)) = if n < s.accepted then 1 else 0 := by
    intro n
    have hold := hc.tally n
    rw [holds_of_between hb] at hold
    rw [tally_append, Nat.add_assoc, tally_outcomes, hold]
  constructor
  · intro hacc o ho hl
    by_contra hne
    obtain ⟨n, hn⟩ := Option.ne_none_iff_exists'.mp hne
    have hpos : 0 < tally n ((os.filter fun o => o.fate = .lost).map (·.msg)) := by
      refine List.countP_pos_iff.mpr ⟨o.msg, List.mem_map_of_mem (List.mem_filter.mpr ⟨ho, by simpa using hl⟩), ?_⟩
      simpa using hn
    have hs := hsum n
    split at hs
    · next hlt =>
      have := hacc.1 n hlt
      omega
    · omega
  · intro hno
    refine ⟨fun n hlt => ?_, hc.dropped⟩
    have hs := hsum n
    have hzero : tally n ((os.filter fun o => o.fate = .lost).map (·.msg)) = 0 := by
      refine List.countP_eq_zero.mpr fun m hm => ?_
      obtain ⟨o, ho, rfl⟩ := List.mem_map.mp hm
      obtain ⟨ho, hl⟩ := List.mem_filter.mp ho
      simp [hno o ho (by simpa using hl)]
    rw [if_pos hlt] at hs
    omega

/-- **Every accepted message is accounted for once**, in each state of a run
between two steps of the IO thread, exactly where no step before it has lost
one: no send of an accepted message has failed, and none has been sent again
and was in flight when the connection was lost. -/
theorem accounted_iff (hr : run (traced (step topicRoot) (note topicRoot)) (start, []) as = some (s, os))
    (hb : s.place.Between) : Accounted s os ↔ Meets (step topicRoot) Keeps start as := by
  have hc : Conserved s os := by
    refine run_invariant' (I := fun so : State × List Outcome => Conserved so.1 so.2) (fun so a so' hc hs => ?_)
      start_conserved hr
    obtain ⟨hs, ho⟩ := traced_eq_some.mp hs
    exact ho ▸ step_conserved hc hs
  rw [accounted_iff_noLoss hc hb, run_noLoss_iff start_paced hr]
  exact and_iff_right fun o ho => by cases ho

instance : ∀ a, Decidable (Keeps s a)
  | .send false =>
    match h : s.place with
    | .publishing m _ => decidable_of_iff (m.origin = none) (by simp [Keeps, h])
    | .connecting | .announcing | .looping | .draining _ | .reading _ | .sleeping _ | .requeueing _ | .waiting =>
      isTrue (by simp [Keeps, h])
  | .clear => inferInstanceAs (Decidable (∀ e ∈ s.inflight.entries, e.msg.retried = true → e.msg.origin = none))
  | .send true | .publish _ _ _ _ | .tick _ | .connect _ | .announce _ | .take | .checkTimeouts | .puback _
  | .readEnds _ | .wake | .pushFront | .reconnect => isTrue trivial

/-- A message is published, acknowledged in the next loop, and all is accounted
for, although the connection was lost in between. -/
def lostAndSentAgain : List Action :=
  [.connect true, .announce true, .publish "events/a" "hello" 1 false, .take, .send true, .checkTimeouts,
    .readEnds false, .pushFront, .pushFront, .clear, .reconnect, .connect true, .announce true, .take, .send true,
    .checkTimeouts, .readEnds true, .tick 5000000, .wake, .take, .send true, .checkTimeouts, .puback 5]

theorem accounted_of_sent_again : ∃ s os, run (traced (step "vb") (note "vb")) (start, []) lostAndSentAgain = some (s, os) ∧
    os.map (·.fate) = [.acknowledged] ∧ Accounted s os := by
  have hr : run (traced (step "vb") (note "vb")) (start, []) lostAndSentAgain = some (_, _) := rfl
  refine ⟨_, _, hr, rfl, (accounted_iff hr trivial).mpr ?_⟩
  decide

/-- The send of a message fails: it is nowhere, and not counted. -/
theorem failed_send_loses : ∃ s os, run (traced (step "vb") (note "vb")) (start, [])
    [.connect true, .announce true, .publish "events/a" "hello" 1 false, .take, .send false, .pushFront, .clear] =
      some (s, os) ∧
      s.place = .waiting ∧ s.queue.items.map (·.origin) = [none] ∧ s.inflight.entries = [] ∧ s.queue.dropped = 0 ∧
      ¬ Accounted s os := by
  refine ⟨_, _, rfl, rfl, rfl, rfl, rfl, fun hacc => ?_⟩
  have hone := hacc.1 0 (by decide)
  revert hone
  decide

end RetailVision.MqttLite
