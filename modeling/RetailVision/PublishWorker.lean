/-
`PublishWorker` (`core-py/vision_base/publish.py`): a bounded queue of messages,
which any thread may submit to, and a thread of its own that publishes them,
the head first. The head stays in the queue while it is being sent, and is
taken out afterwards if it is still the head.

A step is a block under `_cv`, or a call without it. A wait for `_cv` or for
the stop event wakes up at any moment at which it may. Left out: the time of
the backoff, and the text of the log.
-/
import RetailVision.Lib.BoundedQueue
import RetailVision.Lib.Run
import Mathlib.Data.List.Perm.Basic
import Mathlib.Data.List.Range

set_option linter.all false

namespace RetailVision.PublishWorker

open Lib

/-- What is given to the client. -/
inductive Data
  | bytes (data : List UInt8)
  | text (data : String)
  deriving DecidableEq

inductive Payload (ω : Type)
  | data (data : Data)
  /-- anything else, to be encoded as JSON -/
  | object (value : ω)
  deriving DecidableEq

structure Message (ω : Type) where
  topic : String
  payload : Payload ω
  qos : Nat
  retain : Bool

/-- A tuple in the queue. Each is an object of its own, numbered in the order
in which they were made. -/
structure Item (ω : Type) where
  id : Nat
  message : Message ω

/-- What the worker uses of Python: `json.dumps`, which may raise, and `==` of
two payloads in a tuple. -/
structure Python (ω : Type) where
  dumps : ω → Option String
  eq : Payload ω → Payload ω → Bool
  /-- identity goes before equality -/
  eq_refl : ∀ p, eq p p = true

/-- Where the thread is. -/
inductive Worker (ω : Type)
  /-- at the head of the loop, or in its wait -/
  | waiting
  | encoding (item : Item ω)
  | sending (item : Item ω) (data : Data)
  /-- the client has published the item -/
  | sent (item : Item ω)
  /-- `_encode` has given it up -/
  | unencodable (item : Item ω)
  /-- in the wait after a failure -/
  | backingOff
  | exited

structure State (ω : Type) (queueSize : Nat) where
  /-- `_q`, and `dropped` -/
  q : BoundedQueue (Item ω) queueSize
  sent : Nat
  failed : Nat
  stopping : Bool
  worker : Worker ω
  /-- how many items there have been -/
  submitted : Nat

variable {ω : Type} {queueSize : Nat}

def initial (ω : Type) (pos : 0 < queueSize) : State ω queueSize where
  q := .empty pos
  sent := 0
  failed := 0
  stopping := false
  worker := .waiting
  submitted := 0

/-- `==` of two items. -/
def Python.same (py : Python ω) (a b : Message ω) : Bool :=
  a.topic == b.topic && py.eq a.payload b.payload && a.qos == b.qos && a.retain == b.retain

section

variable (py : Python ω)

def submit (m : Message ω) (s : State ω queueSize) : State ω queueSize :=
  { s with q := s.q.pushBack ⟨s.submitted, m⟩, submitted := s.submitted + 1 }

/-- The head of the loop, up to `item = self._q[0]`. -/
def take (s : State ω queueSize) : Option (State ω queueSize) :=
  match s.worker, s.q.items with
  | .waiting, item :: _ => if s.stopping then none else some { s with worker := .encoding item }
  | _, _ => none

/-- `_encode` -/
def encodePayload : Payload ω → Option Data
  | .data data => some data
  | .object value => (py.dumps value).map .text

def encode (s : State ω queueSize) : Option (State ω queueSize) :=
  match s.worker with
  | .encoding item =>
    match encodePayload py item.message.payload with
    | some data => some { s with worker := .sending item data }
    | none => some { s with failed := s.failed + 1, worker := .unencodable item }
  | _ => none

/-- `client.publish` returns, or raises, which counts as `False`. -/
def publish (ok : Bool) (s : State ω queueSize) : Option (State ω queueSize) :=
  match s.worker with
  | .sending item _ =>
    if ok then some { s with sent := s.sent + 1, worker := .sent item }
    else some { s with failed := s.failed + 1, worker := .backingOff }
  | _ => none

def popIfHead (item : Item ω) (q : BoundedQueue (Item ω) queueSize) : BoundedQueue (Item ω) queueSize :=
  match q.popFront with
  | some (head, rest) => if py.same head.message item.message then rest else q
  | none => q

/-- The item that the worker is about to take out. -/
def Worker.done : Worker ω → Option (Item ω)
  | .sent item => some item
  | .unencodable item => some item
  | _ => none

def pop (s : State ω queueSize) : Option (State ω queueSize) :=
  s.worker.done.map fun item => { s with q := popIfHead py item s.q, worker := .waiting }

/-- The wait after a failure is over. -/
def retry (s : State ω queueSize) : Option (State ω queueSize) :=
  match s.worker with
  | .backingOff => some { s with worker := .waiting }
  | _ => none

/-- The loop finds the stop event set. -/
def leave (s : State ω queueSize) : Option (State ω queueSize) :=
  match s.worker with
  | .waiting | .backingOff => if s.stopping then some { s with worker := .exited } else none
  | _ => none

inductive Act (ω : Type)
  | submit (m : Message ω)
  | take
  | encode
  | publish (ok : Bool)
  | pop
  | retry
  | close
  | leave

def step (s : State ω queueSize) : Act ω → Option (State ω queueSize)
  | .submit m => some (submit m s)
  | .take => take s
  | .encode => encode py s
  | .publish ok => publish ok s
  | .pop => pop py s
  | .retry => retry s
  | .close => some { s with stopping := true }
  | .leave => leave s

/-- What has become of the messages, by their numbers. -/
structure Books where
  /-- those that `client.publish` returned `True` for, in the order it did -/
  published : List Nat
  evicted : List Nat
  unencodable : List Nat

def Books.empty : Books := ⟨[], [], []⟩

def record (s : State ω queueSize) (a : Act ω) (b : Books) : Books :=
  match a, s.worker with
  | .submit _, _ =>
    if s.q.items.length < queueSize then b else { b with evicted := b.evicted ++ (s.q.items.take 1).map (·.id) }
  | .encode, .encoding item =>
    if (encodePayload py item.message.payload).isSome then b else { b with unencodable := b.unencodable ++ [item.id] }
  | .publish true, .sending item _ => { b with published := b.published ++ [item.id] }
  | _, _ => b

end

/-- The worker has no item in hand. -/
def State.Idle (s : State ω queueSize) : Prop := s.worker = .waiting ∨ s.worker = .backingOff ∨ s.worker = .exited

/-- Each message is one of published, evicted, unencodable and queued, and is so
once; the counters add up; none is published twice, and they are published in
the order in which they were submitted. -/
structure Balanced (s : State ω queueSize) (b : Books) : Prop where
  accounted : (b.published ++ b.evicted ++ b.unencodable ++ s.q.items.map (·.id)).Perm (List.range s.submitted)
  total : s.submitted = s.sent + s.q.dropped + b.unencodable.length + s.q.items.length
  inOrder : b.published.Pairwise (· < ·)

/-- What is about to be taken out has not been evicted. -/
def StillQueued (s : State ω queueSize) (a : Act ω) : Prop :=
  match a with
  | .pop => ∀ item, s.worker.done = some item → item ∈ s.q.items
  | _ => True

/-! ## Steps -/

variable {py : Python ω} {s s' : State ω queueSize} {b : Books} {a : Act ω} {item x : Item ω} {m : Message ω}

theorem Python.same_refl (py : Python ω) (m : Message ω) : py.same m m = true := by simp [Python.same, py.eq_refl]

/-- The head that is taken out, if any. -/
theorem popIfHead_cases (py : Python ω) (item : Item ω) (q : BoundedQueue (Item ω) queueSize) :
    (popIfHead py item q).dropped = q.dropped ∧
    ((popIfHead py item q).items = q.items ∧ (∀ h t, q.items = h :: t → py.same h.message item.message = false) ∨
      ∃ h, q.items = h :: (popIfHead py item q).items ∧ py.same h.message item.message = true) := by
  unfold popIfHead
  split
  next head rest hp =>
    obtain ⟨hitems, hdropped⟩ := BoundedQueue.popFront_eq_some hp
    split
    next hsame => exact ⟨hdropped, .inr ⟨head, hitems, hsame⟩⟩
    next hne =>
      refine ⟨rfl, .inl ⟨rfl, fun h t ht => ?_⟩⟩
      rw [hitems] at ht
      cases ht
      simpa using hne
  next hp =>
    refine ⟨rfl, .inl ⟨rfl, fun h t ht => ?_⟩⟩
    rw [BoundedQueue.popFront_eq_none hp] at ht
    cases ht

/-- What the worker has in hand before the client has taken it. -/
def Worker.held : Worker ω → Option (Item ω)
  | .encoding item => some item
  | .sending item _ => some item
  | _ => none

/-- The order of the numbers: those queued ascend, what the worker has in hand
comes before them or is the first of them, and what is published came before. -/
structure Ordered (s : State ω queueSize) (b : Books) : Prop where
  queued : (s.q.items.map (·.id)).Pairwise (· < ·)
  below : ∀ x ∈ s.q.items, x.id < s.submitted
  hand : ∀ item, s.worker.held = some item ∨ s.worker.done = some item →
    (∀ x ∈ s.q.items, x = item ∨ item.id < x.id) ∧ item.id < s.submitted
  published : b.published.Pairwise (· < ·)
  published_below : ∀ p ∈ b.published, p < s.submitted
  published_held : ∀ p ∈ b.published, ∀ item, s.worker.held = some item → p < item.id
  published_queued : ∀ p ∈ b.published, ∀ x ∈ s.q.items, p < x.id ∨ s.worker.done = some x

/-- What a step does to the queue, to what the worker has in hand and to the
books. -/
inductive Moves (py : Python ω) (s : State ω queueSize) (a : Act ω) (b : Books) (s' : State ω queueSize) : Books → Prop
  | queued (m : Message ω) : s'.q.items = s.q.items ++ [⟨s.submitted, m⟩] → s'.q.dropped = s.q.dropped →
      s'.sent = s.sent → s'.submitted = s.submitted + 1 → s'.worker = s.worker → Moves py s a b s' b
  | evicted (m : Message ω) (front : Item ω) (rest : List (Item ω)) : s.q.items = front :: rest →
      s'.q.items = rest ++ [⟨s.submitted, m⟩] → s'.q.dropped = s.q.dropped + 1 → s'.sent = s.sent →
      s'.submitted = s.submitted + 1 → s'.worker = s.worker → Moves py s a b s' { b with evicted := b.evicted ++ [front.id] }
  | taken (item : Item ω) (rest : List (Item ω)) : s.worker = .waiting → s.q.items = item :: rest →
      s' = { s with worker := .encoding item } → Moves py s a b s' b
  | encoded (item : Item ω) (data : Data) : s.worker = .encoding item →
      s' = { s with worker := .sending item data } → Moves py s a b s' b
  | givenUp (item : Item ω) : s.worker.held = some item →
      s' = { s with failed := s.failed + 1, worker := .unencodable item } →
      Moves py s a b s' { b with unencodable := b.unencodable ++ [item.id] }
  | published (item : Item ω) : s.worker.held = some item → s' = { s with sent := s.sent + 1, worker := .sent item } →
      Moves py s a b s' { b with published := b.published ++ [item.id] }
  | popped (item : Item ω) : a = .pop → s.worker.done = some item →
      s' = { s with q := popIfHead py item s.q, worker := .waiting } → Moves py s a b s' b
  | idle : s'.q = s.q → s'.sent = s.sent → s'.submitted = s.submitted →
      (s'.worker = s.worker ∨ s'.worker.held = none ∧ s'.worker.done = none ∧ s.worker.done = none) → Moves py s a b s' b

theorem step_moves (h : step py s a = some s') : Moves py s a b s' (record py s a b) := by
  cases a with
  | submit m =>
    cases h
    by_cases hf : s.q.items.length < queueSize
    · obtain ⟨hi, hd⟩ := BoundedQueue.pushBack_of_lt (x := ⟨s.submitted, m⟩) hf
      simp only [record, if_pos hf]
      exact .queued m hi hd rfl rfl rfl
    · obtain ⟨front, rest, hitems, hi, hd⟩ := BoundedQueue.pushBack_of_full (x := ⟨s.submitted, m⟩) hf
      have hrec : record py s (.submit m) b = { b with evicted := b.evicted ++ [front.id] } := by
        simp only [record, if_neg hf]
        rw [hitems]
        rfl
      rw [hrec]
      exact .evicted m front rest hitems hi hd rfl rfl rfl
  | take =>
    simp only [step, take] at h
    split at h
    next item rest hw hq =>
      split at h
      next => cases h
      next =>
        cases h
        exact .taken item rest hw hq rfl
    next => cases h
  | encode =>
    simp only [step, encode] at h
    split at h
    next item hw =>
      split at h
      next data he =>
        cases h
        simp only [record, hw, he, Option.isSome_some, if_true]
        exact .encoded item data hw rfl
      next he =>
        cases h
        simp only [record, hw, he, Option.isSome_none, Bool.false_eq_true, if_false]
        exact .givenUp item (by rw [hw]; rfl) rfl
    next => cases h
  | publish ok =>
    simp only [step, publish] at h
    split at h
    next item data hw =>
      cases ok with
      | true =>
        cases h
        simp only [record, hw]
        exact .published item (by rw [hw]; rfl) rfl
      | false =>
        cases h
        exact .idle rfl rfl rfl (.inr ⟨rfl, rfl, by rw [hw]; rfl⟩)
    next => cases h
  | pop =>
    obtain ⟨item, hdone, rfl⟩ := Option.map_eq_some_iff.mp h
    exact .popped item rfl hdone rfl
  | retry =>
    simp only [step, retry] at h
    split at h
    next hw =>
      cases h
      exact .idle rfl rfl rfl (.inr ⟨rfl, rfl, by rw [hw]; rfl⟩)
    next => cases h
  | close =>
    cases h
    exact .idle rfl rfl rfl (.inl rfl)
  | leave =>
    simp only [step, leave] at h
    have hidle : s.worker.done = none ∧ s' = { s with worker := .exited } := by
      split at h
      next hw =>
        split at h
        next => cases h; exact ⟨by rw [hw]; rfl, rfl⟩
        next => cases h
      next hw =>
        split at h
        next => cases h; exact ⟨by rw [hw]; rfl, rfl⟩
        next => cases h
      next => cases h
    obtain ⟨hdone, rfl⟩ := hidle
    exact .idle rfl rfl rfl (.inr ⟨rfl, rfl, hdone⟩)

/-! ## The order -/

theorem held_done_none (h : s.worker.held = some item) : s.worker.done = none := by
  cases hw : s.worker <;> rw [hw] at h <;> first | rfl | cases h

theorem initial_ordered (pos : 0 < queueSize) : Ordered (initial ω pos) .empty where
  queued := .nil
  below x hx := absurd hx List.not_mem_nil
  hand item h := by simp [initial, Worker.held, Worker.done] at h
  published := .nil
  published_below p hp := absurd hp List.not_mem_nil
  published_held p hp := absurd hp List.not_mem_nil
  published_queued p hp := absurd hp List.not_mem_nil

namespace Ordered

/-- A message is submitted, behind what is left of the queue. -/
theorem submit {l : List (Item ω)} {b' : Books} (ho : Ordered s b) (hl : l.Sublist s.q.items)
    (hq : s'.q.items = l ++ [⟨s.submitted, m⟩]) (hn : s'.submitted = s.submitted + 1) (hw : s'.worker = s.worker)
    (hp : b'.published = b.published) : Ordered s' b' := by
  have hmem : ∀ x ∈ s'.q.items, x ∈ s.q.items ∨ x = ⟨s.submitted, m⟩ := by
    intro x hx
    rw [hq] at hx
    obtain hx | hx := List.mem_append.mp hx
    · exact .inl (hl.subset hx)
    · exact .inr (List.mem_singleton.mp hx)
  refine ⟨?_, fun x hx => ?_, fun item h => ?_, hp ▸ ho.published, fun p h => ?_, fun p h item hi => ?_, fun p h x hx => ?_⟩
  · rw [hq, List.map_append]
    refine List.pairwise_append.mpr ⟨ho.queued.sublist (hl.map _), List.pairwise_singleton _ _, fun i hi j hj => ?_⟩
    obtain ⟨x, hx, rfl⟩ := List.mem_map.mp hi
    rw [List.mem_singleton.mp hj]
    exact ho.below x (hl.subset hx)
  · obtain hx | rfl := hmem x hx
    · have := ho.below x hx
      omega
    · exact hn ▸ Nat.lt_succ_self _
  · rw [hw] at h
    obtain ⟨hfirst, hbelow⟩ := ho.hand item h
    refine ⟨fun x hx => ?_, by omega⟩
    obtain hx | rfl := hmem x hx
    · exact hfirst x hx
    · exact .inr hbelow
  · have := ho.published_below p (hp ▸ h)
    omega
  · exact ho.published_held p (hp ▸ h) item (hw ▸ hi)
  · rw [hw]
    obtain hx | rfl := hmem x hx
    · exact ho.published_queued p (hp ▸ h) x hx
    · exact .inl (ho.published_below p (hp ▸ h))

/-- The items behind the head come after it. -/
theorem head_lt {h : Item ω} {t : List (Item ω)} (ho : Ordered s b) (hq : s.q.items = h :: t) : ∀ x ∈ t, h.id < x.id := by
  have hqueued := ho.queued
  rw [hq, List.map_cons] at hqueued
  intro x hx
  exact (List.pairwise_cons.mp hqueued).1 x.id (List.mem_map_of_mem hx)

/-- An item that is taken out is not in the queue any more. -/
theorem not_mem_popped (ho : Ordered s b) (hdone : s.worker.done = some item) : item ∉ (popIfHead py item s.q).items := by
  intro hmem
  have hfirst := (ho.hand item (.inr hdone)).1
  obtain ⟨hsame, hne⟩ | ⟨h, hq, _⟩ := (popIfHead_cases py item s.q).2
  · rw [hsame] at hmem
    cases hq : s.q.items with
    | nil =>
      rw [hq] at hmem
      cases hmem
    | cons h t =>
      obtain rfl | hlt := hfirst h (by simp [hq])
      · have hself := hne h t hq
        rw [py.same_refl] at hself
        cases hself
      · rw [hq] at hmem
        obtain rfl | hmem := List.mem_cons.mp hmem
        · omega
        · have := ho.head_lt hq item hmem
          omega
  · have hlt := ho.head_lt hq item hmem
    obtain rfl | hlt' := hfirst h (by simp [hq])
    · omega
    · omega

/-- An item that is still queued is the head. -/
theorem popped_of_mem (py : Python ω) (ho : Ordered s b) (hdone : s.worker.done = some item) (hmem : item ∈ s.q.items) :
    s.q.items = item :: (popIfHead py item s.q).items := by
  have hnot := @not_mem_popped ω queueSize py s b item ho hdone
  obtain ⟨hsame, _⟩ | ⟨h, hq, _⟩ := (popIfHead_cases py item s.q).2
  · rw [hsame] at hnot
    exact absurd hmem hnot
  · rw [hq] at hmem
    obtain rfl | hmem := List.mem_cons.mp hmem
    · exact hq
    · exact absurd hmem hnot

theorem published_lt (ho : Ordered s b) (hdone : s.worker.done = none) : ∀ p ∈ b.published, ∀ x ∈ s.q.items, p < x.id := by
  intro p hp x hx
  obtain hlt | hd := ho.published_queued p hp x hx
  · exact hlt
  · rw [hdone] at hd
    cases hd

/-- The worker goes on with the item it has in hand. -/
theorem goes {w : Worker ω} (ho : Ordered s b) (hheld : s.worker.held = some item)
    (hw : ∀ i, w.held = some i ∨ w.done = some i → i = item) : Ordered { s with worker := w } b where
  queued := ho.queued
  below := ho.below
  hand i hi := hw i hi ▸ ho.hand item (.inl hheld)
  published := ho.published
  published_below := ho.published_below
  published_held p hp i hi := hw i (.inl hi) ▸ ho.published_held p hp item hheld
  published_queued p hp x hx := .inl (ho.published_lt (held_done_none hheld) p hp x hx)

theorem step {b' : Books} (ho : Ordered s b) (h : Moves py s a b s' b') : Ordered s' b' := by
  cases h with
  | queued m hq hd hs hn hw => exact ho.submit (List.Sublist.refl _) hq hn hw rfl
  | evicted m front rest hf hq hd hs hn hw =>
    exact ho.submit (l := rest) (hf ▸ List.sublist_cons_self front rest) hq hn hw rfl
  | taken item rest hw hq he =>
    subst he
    have hlt := ho.published_lt (by rw [hw]; rfl)
    refine ⟨ho.queued, ho.below, fun i hi => ?_, ho.published, ho.published_below, fun p hp i hi => ?_,
      fun p hp x hx => .inl (hlt p hp x hx)⟩
    · obtain rfl : item = i := by simpa [Worker.held, Worker.done] using hi
      refine ⟨fun x hx => ?_, ho.below item (by simp [hq])⟩
      rw [hq] at hx
      exact (List.mem_cons.mp hx).imp_right (ho.head_lt hq x)
    · obtain rfl : item = i := by simpa [Worker.held] using hi
      exact hlt p hp item (by simp [hq])
  | encoded item data hw he =>
    subst he
    have hheld : s.worker.held = some item := by rw [hw]; rfl
    exact ho.goes hheld fun i hi => by simpa [Worker.held, Worker.done, eq_comm] using hi
  | givenUp item hheld he =>
    subst he
    have hgoes := ho.goes (w := .unencodable item) hheld fun i hi => by simpa [Worker.held, Worker.done, eq_comm] using hi
    exact ⟨hgoes.queued, hgoes.below, hgoes.hand, hgoes.published, hgoes.published_below, hgoes.published_held,
      hgoes.published_queued⟩
  | published item hheld he =>
    subst he
    have hlt := ho.published_lt (held_done_none hheld)
    obtain ⟨hfirst, hbelow⟩ := ho.hand item (.inl hheld)
    refine ⟨ho.queued, ho.below, fun i hi => ?_, ?_, fun p hp => ?_, fun p hp i hi => ?_, fun p hp x hx => ?_⟩
    · obtain rfl : item = i := by simpa [Worker.held, Worker.done] using hi
      exact ho.hand item (.inl hheld)
    · refine List.pairwise_append.mpr ⟨ho.published, List.pairwise_singleton _ _, fun p hp i hi => ?_⟩
      rw [List.mem_singleton.mp hi]
      exact ho.published_held p hp item hheld
    · obtain hp | hp := List.mem_append.mp hp
      · exact ho.published_below p hp
      · rw [List.mem_singleton.mp hp]
        exact hbelow
    · simp [Worker.held] at hi
    · obtain hp | hp := List.mem_append.mp hp
      · exact .inl (hlt p hp x hx)
      · rw [List.mem_singleton.mp hp]
        obtain rfl | hlt := hfirst x hx
        · exact .inr rfl
        · exact .inl hlt
  | popped item hpop hdone he =>
    subst he
    have hsub : (popIfHead py item s.q).items.Sublist s.q.items := by
      obtain ⟨hsame, _⟩ | ⟨h, hq, _⟩ := (popIfHead_cases py item s.q).2
      · rw [hsame]
      · rw [hq]
        exact List.sublist_cons_self _ _
    refine ⟨ho.queued.sublist (hsub.map _), fun x hx => ho.below x (hsub.subset hx), fun i hi => ?_, ho.published,
      ho.published_below, fun p hp i hi => ?_, fun p hp x hx => ?_⟩
    · simp [Worker.held, Worker.done] at hi
    · simp [Worker.held] at hi
    · obtain hlt | hx' := ho.published_queued p hp x (hsub.subset hx)
      · exact .inl hlt
      · rw [hdone] at hx'
        cases hx'
        exact absurd hx (ho.not_mem_popped hdone)
  | idle hq hs hn hw =>
    refine ⟨hq ▸ ho.queued, fun x hx => hn ▸ ho.below x (hq ▸ hx), fun item hi => ?_, ho.published,
      fun p hp => hn ▸ ho.published_below p hp, fun p hp item hi => ?_, fun p hp x hx => ?_⟩
    · obtain hw | ⟨hheld, hdone, _⟩ := hw
      · rw [hw] at hi
        rw [hq, hn]
        exact ho.hand item hi
      · simp [hheld, hdone] at hi
    · obtain hw | ⟨hheld, _⟩ := hw
      · exact ho.published_held p hp item (hw ▸ hi)
      · simp [hheld] at hi
    · obtain hw | ⟨_, _, hdone⟩ := hw
      · exact hw ▸ ho.published_queued p hp x (hq ▸ hx)
      · exact .inl (ho.published_lt hdone p hp x (hq ▸ hx))

end Ordered

/-! ## The books -/

/-- The counters are those of the books. -/
structure Counted (s : State ω queueSize) (b : Books) : Prop where
  sent : s.sent = b.published.length
  dropped : s.q.dropped = b.evicted.length

theorem counted_step {b' : Books} (hc : Counted s b) (h : Moves py s a b s' b') : Counted s' b' := by
  obtain ⟨hs, hd⟩ := hc
  cases h with
  | queued m hq hd' hs' hn hw => exact ⟨hs'.trans hs, hd'.trans hd⟩
  | evicted m front rest hf hq hd' hs' hn hw => exact ⟨hs'.trans hs, by simp [hd', hd]⟩
  | taken item rest hw hq he => exact he ▸ ⟨hs, hd⟩
  | encoded item data hw he => exact he ▸ ⟨hs, hd⟩
  | givenUp item hheld he => exact he ▸ ⟨hs, hd⟩
  | published item hheld he => exact he ▸ ⟨by simp [hs], hd⟩
  | popped item hpop hdone he => exact he ▸ ⟨hs, (popIfHead_cases py item s.q).1.trans hd⟩
  | idle hq hs' hn hw => exact ⟨hs'.trans hs, by rw [hq, hd]⟩

/-- What has become of a message, but for those queued. -/
def Books.settled (b : Books) : List Nat := b.published ++ b.evicted ++ b.unencodable

/-- Each message is accounted for once, and what is about to be taken out once
more, as it is settled and still queued. -/
def Accounted (s : State ω queueSize) (b : Books) : Prop :=
  (b.settled ++ s.q.items.map (·.id)).Perm ((s.worker.done.map (·.id)).toList ++ List.range s.submitted)

theorem accounted_step {b' : Books} (ho : Ordered s b) (ha : Accounted s b)
    (hc : StillQueued s a) (h : Moves py s a b s' b') : Accounted s' b' := by
  unfold Accounted at *
  rw [List.perm_iff_count] at *
  cases h with
  | queued m hq hd hs hn hw =>
    intro id
    have := ha id
    rw [hq, hn, hw, List.range_succ]
    simp only [List.map_append, List.count_append] at this ⊢
    simp only [List.map_cons, List.map_nil]
    omega
  | evicted m front rest hf hq hd hs hn hw =>
    intro id
    have := ha id
    rw [hf] at this
    rw [hq, hn, hw, List.range_succ]
    simp only [Books.settled, List.map_append, List.map_cons, List.map_nil, List.count_append, List.count_cons,
      List.count_nil] at this ⊢
    omega
  | taken item rest hw hq he =>
    subst he
    simpa [hw, Worker.done] using ha
  | encoded item data hw he =>
    subst he
    simpa [hw, Worker.done] using ha
  | givenUp item hheld he | published item hheld he =>
    subst he
    intro id
    have := ha id
    rw [held_done_none hheld] at this
    simp only [Books.settled, Worker.done, Option.map_none, Option.map_some, Option.toList_none, Option.toList_some,
      List.nil_append, List.count_append, List.count_cons, List.count_nil] at this ⊢
    omega
  | popped item hpop hdone he =>
    subst hpop
    have hhead := ho.popped_of_mem py hdone (hc item hdone)
    subst he
    intro id
    have := ha id
    rw [hdone, hhead] at this
    simp only [Worker.done, Option.map_none, Option.map_some, Option.toList_none, Option.toList_some, List.nil_append,
      List.map_cons, List.count_append, List.count_cons, List.count_nil] at this ⊢
    omega
  | idle hq hs hn hw =>
    have hdone : s'.worker.done = s.worker.done := by
      obtain hw | ⟨_, hdone', hdone⟩ := hw
      · rw [hw]
      · rw [hdone, hdone']
    rw [hq, hn, hdone]
    exact ha

/-- A message that is taken out after it has been evicted is settled twice. -/
theorem settled_twice (ho : Ordered s b) (ha : Accounted s b) (hdone : s.worker.done = some item)
    (hmem : item ∉ s.q.items) : ¬ b.settled.Nodup := by
  intro hn
  obtain ⟨hfirst, hbelow⟩ := ho.hand item (.inr hdone)
  have hcount := (List.perm_iff_count.mp ha) item.id
  have hqueued : (s.q.items.map (·.id)).count item.id = 0 := by
    refine List.count_eq_zero.mpr fun hid => ?_
    obtain ⟨x, hx, hxid⟩ := List.mem_map.mp hid
    obtain rfl | hlt := hfirst x hx
    · exact hmem hx
    · omega
  have hrange : (List.range s.submitted).count item.id = 1 :=
    List.nodup_range.count.trans (if_pos (List.mem_range.mpr hbelow))
  have hle := List.nodup_iff_count.mp hn item.id
  simp only [hdone, Option.map_some, Option.toList_some, List.count_append, List.count_cons_self, List.count_nil, hqueued,
    hrange] at hcount
  omega

theorem pop_of_not_stillQueued (h : ¬ StillQueued s a) :
    a = .pop ∧ ∃ item, s.worker.done = some item ∧ item ∉ s.q.items := by
  cases a with
  | pop => simpa [StillQueued] using h
  | _ => exact absurd trivial h

/-- What is settled stays settled. -/
theorem settled_sublist {b' : Books} (h : Moves py s a b s' b') : b.settled.Sublist b'.settled := by
  cases h with
  | evicted m front rest hf hq hd hs hn hw =>
    exact ((List.Sublist.refl _).append (List.sublist_append_left _ _)).append_right _
  | givenUp item hheld he => exact (List.Sublist.refl _).append (List.sublist_append_left _ _)
  | published item hheld he => exact ((List.sublist_append_left _ _).append_right _).append_right _
  | _ => exact List.Sublist.refl _

/-! ## Runs -/

section

variable {as : List (Act ω)} {b₀ : Books} {s₀ : State ω queueSize}

theorem run_ordered (hr : run (traced (step py) (record py)) (s₀, b₀) as = some (s, b)) (ho : Ordered s₀ b₀)
    (hc : Counted s₀ b₀) : Ordered s b ∧ Counted s b := by
  refine run_invariant' (I := fun sb : State ω queueSize × Books => Ordered sb.1 sb.2 ∧ Counted sb.1 sb.2)
    (fun sb a sb' hi hs => ?_) ⟨ho, hc⟩ hr
  obtain ⟨hstep, he⟩ := traced_eq_some.mp hs
  have hm : Moves py sb.1 a sb.2 sb'.1 sb'.2 := he ▸ step_moves hstep
  exact ⟨hi.1.step hm, counted_step hi.2 hm⟩

theorem run_settled (hr : run (traced (step py) (record py)) (s₀, b₀) as = some (s, b)) (hn : ¬ b₀.settled.Nodup) :
    ¬ b.settled.Nodup := by
  refine run_invariant' (I := fun sb : State ω queueSize × Books => ¬ sb.2.settled.Nodup) (fun sb a sb' hi hs => ?_) hn hr
  obtain ⟨hstep, he⟩ := traced_eq_some.mp hs
  have hm : Moves py sb.1 a sb.2 sb'.1 sb'.2 := he ▸ step_moves hstep
  exact fun h => hi (h.sublist (settled_sublist hm))

/-- A run keeps the books, or it settles a message twice. -/
theorem run_accounted (hr : run (traced (step py) (record py)) (s₀, b₀) as = some (s, b)) (ho : Ordered s₀ b₀)
    (ha : Accounted s₀ b₀) :
    (Meets (step py) StillQueued s₀ as → Accounted s b) ∧ (¬ Meets (step py) StillQueued s₀ as → ¬ b.settled.Nodup) := by
  induction as generalizing s₀ b₀ with
  | nil =>
    cases hr
    exact ⟨fun _ => ha, fun h => absurd trivial h⟩
  | cons a as ih =>
    obtain ⟨⟨s₁, b₁⟩, hs, hr⟩ := run_cons.mp hr
    obtain ⟨hstep, rfl⟩ := traced_eq_some.mp hs
    have hm : Moves py s₀ a b₀ s₁ (record py s₀ a b₀) := step_moves hstep
    rw [meets_cons_some hstep]
    by_cases hq : StillQueued s₀ a
    · rw [and_iff_right hq]
      exact ih hr (ho.step hm) (accounted_step ho ha hq hm)
    · obtain ⟨rfl, item, hdone, hmem⟩ := pop_of_not_stillQueued hq
      exact ⟨fun h => absurd h.1 hq, fun _ => run_settled hr (settled_twice ho ha hdone hmem)⟩

/-- **The books balance whenever the worker has nothing in hand, if and only
if** no message was taken out after it had been evicted: published or given up,
and counted as dropped as well. -/
theorem balanced_iff {pos : 0 < queueSize}
    (hr : run (traced (step py) (record py)) (initial ω pos, .empty) as = some (s, b)) (hidle : s.Idle) :
    Balanced s b ↔ Meets (step py) StillQueued (initial ω pos) as := by
  have hempty : Accounted (initial ω pos) .empty := by simp [Accounted, Books.settled, Books.empty, initial, Worker.done,
    BoundedQueue.empty]
  obtain ⟨ho, hc⟩ := run_ordered hr (initial_ordered pos) ⟨rfl, rfl⟩
  obtain ⟨hmeets, hnot⟩ := run_accounted hr (initial_ordered pos) hempty
  have hdone : s.worker.done = none := by
    obtain hw | hw | hw := hidle <;> rw [hw] <;> rfl
  constructor
  · intro h
    by_contra hm
    have hn : (b.settled ++ s.q.items.map (·.id)).Nodup := h.accounted.nodup_iff.mpr List.nodup_range
    exact hnot hm (hn.sublist (List.sublist_append_left _ _))
  · intro h
    have ha := hmeets h
    rw [Accounted, hdone] at ha
    refine ⟨ha, ?_, ho.published⟩
    have hlength := ha.length_eq
    simp only [Books.settled, List.length_append, List.length_map, Option.map_none, Option.toList_none, List.length_nil,
      List.length_range] at hlength
    rw [hc.sent, hc.dropped]
    omega

end

/-- Objects that are equal where they are the same. -/
def unitPython : Python Unit where
  dumps _ := some "null"
  eq a b := decide (a = b)
  eq_refl p := by simp

def textMessage (text : String) : Message Unit := { topic := "vb/events", payload := .data (.text text), qos := 0, retain := false }

/-- The first of two messages is retried until it is out. -/
def retried : List (Act Unit) :=
  [.submit (textMessage "a"), .take, .encode, .publish false, .submit (textMessage "b"), .retry, .take, .encode, .publish true,
    .pop]

theorem balanced_iff_retried : ∃ s b, run (traced (step unitPython) (record unitPython))
    (initial Unit (show 0 < 2 by decide), .empty) retried = some (s, b) ∧ b.published = [0] ∧
      (Balanced s b ↔ Meets (step unitPython) StillQueued (initial Unit (show 0 < 2 by decide)) retried) :=
  have ⟨s, b, hr, hw, hb⟩ : ∃ s b, run (traced (step unitPython) (record unitPython))
      (initial Unit (show 0 < 2 by decide), .empty) retried = some (s, b) ∧ s.worker = .waiting ∧ b.published = [0] :=
    ⟨_, _, rfl, rfl, rfl⟩
  ⟨s, b, hr, hb, balanced_iff hr (.inl hw)⟩

/-- The second one evicts the first while the client is publishing it. -/
def evictedInHand : List (Act Unit) :=
  [.submit (textMessage "a"), .take, .encode, .submit (textMessage "b"), .publish true, .pop]

theorem sent_and_dropped : ¬ ∀ (queueSize : Nat) (pos : 0 < queueSize) (py : Python Unit) (as : List (Act Unit))
    (s : State Unit queueSize) (b : Books), run (traced (step py) (record py)) (initial Unit pos, .empty) as = some (s, b) →
      s.Idle → Balanced s b := by
  intro hall
  have hbalanced := hall 1 (by decide) unitPython evictedInHand _ _ rfl (.inl rfl)
  exact absurd hbalanced.total (by decide)

end RetailVision.PublishWorker
