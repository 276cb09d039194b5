/-
`FrameBatcher` of the Hailo backend (`backends/hailo/frame_batcher.cpp`): a queue
for each stream, which drops its oldest frame where it is full, and threads that
take batches from all of them, two frames of a stream at most.

In every run of callers of `enqueue`, `take` and `stop`, whose waits end when they
may, no frame is lost but those that are counted (`frames_accounted`), and no stream
that has a frame is passed over for long (`streams_served`).

Left out: counters beyond `2 ^ 64`, and the frames' pixels as more than a value.
-/
import RetailVision.Lib.RoundRobin
import RetailVision.Lib.Run
import Mathlib.Algebra.Order.Ring.Nat
import Mathlib.Logic.Function.Basic

set_option linter.all false

namespace RetailVision.FrameBatcher

open Lib RoundRobin

/-- `BatchFrame`, with the time in nanoseconds. -/
structure BatchFrame (π : Type) where
  stream : Int
  seq : Nat
  timestamp : Int
  rgb : π

structure Batcher (π : Type) where
  queues : List (List (BatchFrame π))
  batchSize : Nat
  waitMs : Nat
  depth : Nat
  rr : Nat
  stopped : Bool
  drops : List Nat
  hist : List Nat

variable {π : Type}

/-- The constructor, which throws. -/
def make (n b wait : Int) (d : Nat) : Option (Batcher π) :=
  if n < 1 ∨ b < 1 ∨ wait < 0 ∨ d < 1 then none
  else some {
    queues := List.replicate n.toNat []
    batchSize := b.toNat
    waitMs := wait.toNat
    depth := d
    rr := 0
    stopped := false
    drops := List.replicate n.toNat 0
    hist := List.replicate (b.toNat + 1) 0 }

def enqueue (b : Batcher π) (f : BatchFrame π) : Batcher π × Bool :=
  if b.stopped = true ∨ f.stream < 0 ∨ (b.queues.length : Int) ≤ f.stream then (b, false)
  else
    let stream := f.stream.toNat
    let q := queueAt b.queues stream
    if b.depth ≤ q.length then
      ({ b with queues := b.queues.set stream (q.tail ++ [f]), drops := b.drops.modify stream (· + 1) }, true)
    else ({ b with queues := b.queues.set stream (q ++ [f]) }, true)

def stop (b : Batcher π) (discard : Bool) : Batcher π :=
  { b with stopped := true, queues := if discard then b.queues.map fun _ => [] else b.queues }

/-- `queued` -/
def queued (b : Batcher π) : Nat := (b.queues.map List.length).sum

/-- The earliest time by which the front of a queue has waited enough. -/
def deadline (b : Batcher π) : Option Int :=
  (b.queues.filterMap fun q => q.head?.map fun f => f.timestamp + b.waitMs * 1000000).min?

/-- The end of `take`, which makes up a batch. -/
def gather (b : Batcher π) : Batcher π × List (BatchFrame π) :=
  let order := places b.queues.length b.rr
  let (queues, out) := (order ++ order).foldl (serve b.batchSize) (b.queues, [])
  ({ b with queues := queues, rr := (b.rr + 1) % b.queues.length, hist := b.hist.modify out.length (· + 1) }, out)

/-- Where a thread is in `take`. -/
inductive Stage
  | out
  /-- in the wait for a frame -/
  | waiting
  /-- in the wait for a full batch -/
  | filling (deadline : Option Int)

structure State (π : Type) where
  batcher : Batcher π
  takers : Nat → Stage
  /-- the frames that `enqueue` has let in -/
  given : List (BatchFrame π)
  /-- what the calls of `take` have come to, but for `false` -/
  batches : List (List (BatchFrame π))

inductive Action (π : Type)
  | enqueue (f : BatchFrame π)
  | take (t : Nat)
  /-- the first wait ends -/
  | wake (t : Nat) (now : Int)
  /-- the second wait ends -/
  | fill (t : Nat) (now : Int)
  | stop (discard : Bool)

/-- A call of `take` returns a batch. -/
def State.finish (s : State π) (t : Nat) : State π where
  batcher := (gather s.batcher).1
  takers := Function.update s.takers t .out
  given := s.given
  batches := s.batches ++ [(gather s.batcher).2]

def step (s : State π) : Action π → Option (State π)
  | .enqueue f => some { s with
      batcher := (enqueue s.batcher f).1
      given := if (enqueue s.batcher f).2 then s.given ++ [f] else s.given }
  | .take t => match s.takers t with
    | .out => some { s with takers := Function.update s.takers t .waiting }
    | _ => none
  | .wake t now => match s.takers t with
    | .waiting =>
      if s.batcher.stopped then some { s with takers := Function.update s.takers t .out }
      else if queued s.batcher = 0 then none
      else if 0 < s.batcher.waitMs ∧ (deadline s.batcher).all (now < ·) = true ∧ queued s.batcher < s.batcher.batchSize then
        some { s with takers := Function.update s.takers t (.filling (deadline s.batcher)) }
      else some (s.finish t)
    | _ => none
  | .fill t now => match s.takers t with
    | .filling deadline =>
      if s.batcher.stopped = true ∨ s.batcher.batchSize ≤ queued s.batcher ∨ deadline.any (· ≤ now) = true then some (s.finish t)
      else none
    | _ => none
  | .stop discard => some { s with batcher := stop s.batcher discard }

def start (b : Batcher π) : State π where
  batcher := b
  takers := fun _ => .out
  given := []
  batches := []

/-- The frames of a stream. -/
def own (i : Nat) (f : BatchFrame π) : Bool := decide (f.stream = i)

/-! ## One batch -/

variable {b : Batcher π} {s s' t : State π} {a : Action π} {i n size depth : Nat} {f : BatchFrame π} {queue : List (BatchFrame π)}

/-- **A batch** is the first of the oldest frames, and then of the second oldest, in
the order of the streams from the cursor round. -/
theorem gather_eq (b : Batcher π) : (gather b).2 =
    ((places b.queues.length b.rr).filterMap (fun i => (queueAt b.queues i).head?) ++
      (places b.queues.length b.rr).filterMap fun i => (queueAt b.queues i).tail.head?).take b.batchSize := by
  have htwice := served_twice (s := (b.queues, [])) (nodup_places b.queues.length b.rr) (Nat.zero_le b.batchSize)
  rwa [List.nil_append] at htwice

/-- What `gather` does to the queues. -/
theorem gather_spec (hp : Placed own b.queues) :
    (gather b).1.queues.length = b.queues.length ∧ Placed own (gather b).1.queues ∧
    (∀ i, queueAt b.queues i = (gather b).2.filter (own i) ++ queueAt (gather b).1.queues i) ∧
    (gather b).2.length ≤ b.batchSize ∧ ∀ i, ((gather b).2.filter (own i)).length ≤ 2 := by
  have hmoved := moved_round (s := (b.queues, [])) hp b.batchSize (places b.queues.length b.rr ++ places b.queues.length b.rr)
  obtain ⟨new, hnew, hqueues⟩ := hmoved.more
  rw [List.nil_append] at hnew
  refine ⟨hmoved.length, hmoved.placed hp, fun i => ?_, ?_, fun i => ?_⟩
  · rw [← hnew] at hqueues
    exact hqueues i
  · rw [gather_eq]
    exact List.length_take_le ..
  · have hcount := count_round (s := (b.queues, [])) hp b.batchSize (places b.queues.length b.rr ++ places b.queues.length b.rr) i
    have hone := List.nodup_iff_count_le_one.mp (nodup_places b.queues.length b.rr) i
    rw [List.count_append] at hcount
    simp only [List.filter_nil, List.length_nil, Nat.zero_add] at hcount
    exact hcount.trans (by omega)

/-- **A stream is not passed over** that has fewer streams before it than a batch has room. -/
theorem mem_gather (hrr : b.rr < b.queues.length) (hi : i < b.queues.length) (hbefore : before b.queues.length b.rr i < b.batchSize)
    (hqueue : queueAt b.queues i = f :: queue) : f ∈ (gather b).2 := by
  rw [gather_eq, List.take_append]
  exact List.mem_append_left _ (mem_served_of_before hrr hi hbefore hqueue)

/-! ## The account -/

structure Inv (n size depth : Nat) (s : State π) : Prop where
  places : s.batcher.queues.length = n
  sizeIs : s.batcher.batchSize = size
  depthIs : s.batcher.depth = depth
  drops : s.batcher.drops.length = n
  hist : s.batcher.hist.length = size + 1
  rr : s.batcher.rr < n
  placed : Placed own s.batcher.queues
  room : ∀ i, (queueAt s.batcher.queues i).length ≤ depth
  account : ∀ i, ∃ gone, s.given.filter (own i) = gone ++ queueAt s.batcher.queues i ∧ (s.batches.flatten.filter (own i)).Sublist gone ∧
    (s.batcher.stopped = false → gone.length = (s.batches.flatten.filter (own i)).length + s.batcher.drops.getD i 0)
  counts : ∀ k ≤ size, s.batcher.hist.getD k 0 = s.batches.countP (·.length = k)
  batches : ∀ batch ∈ s.batches, batch.length ≤ size ∧ ∀ i, (batch.filter (own i)).length ≤ 2

theorem getD_modify {l : List Nat} {k : Nat} (hk : k < l.length) (j : Nat) :
    (l.modify k (· + 1)).getD j 0 = if k = j then l.getD j 0 + 1 else l.getD j 0 := by
  rw [List.getD_eq_getElem?_getD, List.getD_eq_getElem?_getD, List.getElem?_modify]
  by_cases hkj : k = j
  · subst hkj
    simp [hk]
  · simp [hkj]

/-- **What `enqueue` does** with a frame that it lets in: it goes to the end of the
queue of its stream, and the first of a full queue is dropped. -/
theorem enqueue_cases (b : Batcher π) (f : BatchFrame π) : enqueue b f = (b, false) ∨
    ∃ k queue drops, k < b.queues.length ∧ (∀ j, own j f = decide (k = j)) ∧
      enqueue b f = ({ b with queues := b.queues.set k (queue ++ [f]), drops := drops }, true) ∧
      ((queue = queueAt b.queues k ∧ queue.length < b.depth ∧ drops = b.drops) ∨
        queue = (queueAt b.queues k).tail ∧ b.depth ≤ (queueAt b.queues k).length ∧ drops = b.drops.modify k (· + 1)) := by
  rw [enqueue]
  split
  · exact .inl rfl
  · next hlets =>
    rw [not_or, not_or] at hlets
    obtain ⟨-, hpos, hlt⟩ := hlets
    have hown : ∀ j, own j f = decide (f.stream.toNat = j) := fun j => by
      simp only [own, decide_eq_decide]
      omega
    refine .inr ⟨f.stream.toNat, ?_⟩
    dsimp only
    split
    · next hfull => exact ⟨_, _, by omega, hown, rfl, .inr ⟨rfl, hfull, rfl⟩⟩
    · next hfull => exact ⟨_, _, by omega, hown, rfl, .inl ⟨rfl, by omega, rfl⟩⟩

/-- **A frame is let in**, or not. -/
theorem Inv.enqueue (hd : 0 < depth) (h : Inv n size depth s) (f : BatchFrame π) (hs : step s (.enqueue f) = some s') :
    Inv n size depth s' := by
  cases hs
  obtain heq | ⟨k, queue, drops, hk, hown, heq, hqueue⟩ := enqueue_cases s.batcher f
  · rw [heq]
    exact ⟨h.places, h.sizeIs, h.depthIs, h.drops, h.hist, h.rr, h.placed, h.room, h.account, h.counts, h.batches⟩
  · rw [heq]
    have hset := fun j => queueAt_set hk (queue ++ [f]) j
    have hsub : ∀ x ∈ queue, x ∈ queueAt s.batcher.queues k := by
      obtain ⟨rfl, -⟩ | ⟨rfl, -⟩ := hqueue
      · exact fun x hx => hx
      · exact fun x hx => List.mem_of_mem_tail hx
    refine ⟨List.length_set.trans h.places, h.sizeIs, h.depthIs, ?_, h.hist, h.rr, fun j x hx => ?_, fun j => ?_, fun j => ?_,
      h.counts, h.batches⟩
    · obtain ⟨-, -, rfl⟩ | ⟨-, -, rfl⟩ := hqueue
      · exact h.drops
      · exact (List.length_modify ..).trans h.drops
    · dsimp only at hx
      rw [hset] at hx
      split at hx
      · next hkj =>
        subst hkj
        obtain hx | hx := List.mem_append.mp hx
        · exact h.placed _ x (hsub x hx)
        · cases List.mem_singleton.mp hx
          exact hown
      · exact h.placed j x hx
    · dsimp only
      rw [hset]
      split
      · next hkj =>
        subst hkj
        have hroom := h.room k
        have hdepth := h.depthIs
        obtain ⟨rfl, hlt, -⟩ | ⟨rfl, hfull, -⟩ := hqueue
        · simp
          omega
        · simp
          omega
      · exact h.room j
    · obtain ⟨gone, hgone, htaken, hcount⟩ := h.account j
      dsimp only
      rw [if_pos rfl, List.filter_append, hgone, hset]
      by_cases hkj : k = j
      · subst hkj
        have hf : [f].filter (own k) = [f] := by simp [hown]
        rw [hf, if_pos rfl]
        obtain ⟨rfl, -, rfl⟩ | ⟨rfl, hfull, rfl⟩ := hqueue
        · exact ⟨gone, List.append_assoc .., htaken, hcount⟩
        · -- the first of the queue is gone, and is counted
          cases hfirst : queueAt s.batcher.queues k with
          | nil =>
            rw [hfirst, h.depthIs] at hfull
            simp at hfull
            omega
          | cons x rest =>
            refine ⟨gone ++ [x], by simp, htaken.trans (List.sublist_append_left ..), fun hrun => ?_⟩
            rw [getD_modify (by rw [h.drops, ← h.places]; exact hk), if_pos rfl, List.length_append, hcount hrun]
            rfl
      · have hf : [f].filter (own j) = [] := by simp [hown, hkj]
        rw [hf, List.append_nil, if_neg hkj]
        refine ⟨gone, rfl, htaken, fun hrun => ?_⟩
        rw [hcount hrun]
        obtain ⟨-, -, rfl⟩ | ⟨-, -, rfl⟩ := hqueue
        · rfl
        · rw [getD_modify (by rw [h.drops, ← h.places]; exact hk), if_neg hkj]

/-- **A batch is taken.** -/
theorem Inv.finish (h : Inv n size depth s) (t : Nat) : Inv n size depth (s.finish t) := by
  obtain ⟨hlen, hplaced, hqueues, hsize, htwo⟩ := gather_spec h.placed
  have hle : (gather s.batcher).2.length ≤ size := h.sizeIs ▸ hsize
  refine ⟨hlen.trans h.places, h.sizeIs, h.depthIs, h.drops, (List.length_modify ..).trans h.hist, ?_, hplaced, fun i => ?_, fun i => ?_,
    fun k hk => ?_, fun batch hbatch => ?_⟩
  · have hrr := h.places ▸ h.rr
    exact h.places ▸ Nat.mod_lt _ (by omega)
  · have hroom := h.room i
    rw [hqueues i, List.length_append] at hroom
    exact (Nat.le_add_left ..).trans hroom
  · obtain ⟨gone, hgone, htaken, hcount⟩ := h.account i
    have hbatches : (s.finish t).batches.flatten.filter (own i) = s.batches.flatten.filter (own i) ++ (gather s.batcher).2.filter (own i) := by
      simp [State.finish]
    refine ⟨gone ++ (gather s.batcher).2.filter (own i), ?_, ?_, fun hrun => ?_⟩
    · rw [List.append_assoc]
      exact hgone.trans (congrArg (gone ++ ·) (hqueues i))
    · rw [hbatches]
      exact htaken.append (.refl _)
    · have hdrops : (s.finish t).batcher.drops = s.batcher.drops := rfl
      rw [hbatches, List.length_append, List.length_append, hcount hrun, hdrops]
      omega
  · have hhist : (s.finish t).batcher.hist = s.batcher.hist.modify (gather s.batcher).2.length (· + 1) := rfl
    rw [hhist, getD_modify (by rw [h.hist]; omega), h.counts k hk]
    simp only [State.finish, List.countP_append, List.countP_singleton, decide_eq_true_eq]
    split <;> rfl
  · obtain hbatch | hbatch := List.mem_append.mp hbatch
    · exact h.batches batch hbatch
    · cases List.mem_singleton.mp hbatch
      exact ⟨hle, htwo⟩

/-- The queues are given up, or left as they are. -/
theorem Inv.stop (h : Inv n size depth s) (discard : Bool) (hs : step s (.stop discard) = some s') : Inv n size depth s' := by
  cases hs
  cases discard with
  | false =>
    refine ⟨h.places, h.sizeIs, h.depthIs, h.drops, h.hist, h.rr, h.placed, h.room, fun i => ?_, h.counts, h.batches⟩
    obtain ⟨gone, hgone, htaken, -⟩ := h.account i
    exact ⟨gone, hgone, htaken, fun hrun => by cases hrun⟩
  | true =>
    have hempty : ∀ i, queueAt (s.batcher.queues.map fun _ => []) i = ([] : List (BatchFrame π)) := by
      intro i
      rw [queueAt, List.getD_eq_getElem?_getD, List.getElem?_map]
      cases s.batcher.queues[i]? <;> rfl
    refine ⟨(List.length_map _).trans h.places, h.sizeIs, h.depthIs, h.drops, h.hist, h.rr, fun i x hx => ?_, fun i => ?_, fun i => ?_, h.counts,
      h.batches⟩
    · dsimp only [FrameBatcher.stop] at hx
      rw [if_pos rfl, hempty] at hx
      cases hx
    · dsimp only [FrameBatcher.stop]
      rw [if_pos rfl, hempty]
      exact Nat.zero_le _
    · obtain ⟨gone, hgone, htaken, -⟩ := h.account i
      refine ⟨gone ++ queueAt s.batcher.queues i, ?_, htaken.trans (List.sublist_append_left ..), fun hrun => by cases hrun⟩
      dsimp only [FrameBatcher.stop]
      rw [if_pos rfl, hempty, List.append_nil]
      exact hgone

/-- **What a step does.** -/
theorem step_cases (hs : step s a = some s') : (∃ f, a = .enqueue f) ∨ (∃ discard, a = .stop discard) ∨
    (∃ takers, s' = { s with takers := takers }) ∨ ∃ t, s' = s.finish t := by
  cases a with
  | enqueue f => exact .inl ⟨f, rfl⟩
  | stop discard => exact .inr (.inl ⟨discard, rfl⟩)
  | take t =>
    simp only [step] at hs
    split at hs <;> cases hs
    exact .inr (.inr (.inl ⟨_, rfl⟩))
  | wake t now =>
    simp only [step] at hs
    split at hs
    · split at hs
      · cases hs
        exact .inr (.inr (.inl ⟨_, rfl⟩))
      · split at hs
        · cases hs
        · split at hs <;> cases hs
          · exact .inr (.inr (.inl ⟨_, rfl⟩))
          · exact .inr (.inr (.inr ⟨t, rfl⟩))
    · cases hs
  | fill t now =>
    simp only [step] at hs
    split at hs
    · split at hs <;> cases hs
      exact .inr (.inr (.inr ⟨t, rfl⟩))
    · cases hs

theorem Inv.step (hd : 0 < depth) (h : Inv n size depth s) (hs : step s a = some s') : Inv n size depth s' := by
  obtain ⟨f, rfl⟩ | ⟨discard, rfl⟩ | ⟨takers, rfl⟩ | ⟨t, rfl⟩ := step_cases hs
  · exact h.enqueue hd f hs
  · exact h.stop discard hs
  · exact ⟨h.places, h.sizeIs, h.depthIs, h.drops, h.hist, h.rr, h.placed, h.room, h.account, h.counts, h.batches⟩
  · exact h.finish t

theorem queueAt_replicate (n i : Nat) : queueAt (List.replicate n []) i = ([] : List (BatchFrame π)) := by
  rw [queueAt, List.getD_eq_getElem?_getD, List.getElem?_replicate]
  split <;> rfl

/-- **A batcher** that is made starts with nothing. -/
theorem inv_start {n b wait : Int} {d : Nat} {made : Batcher π} (hm : make n b wait d = some made) :
    0 < b.toNat ∧ 0 < d ∧ Inv n.toNat b.toNat d (start made) := by
  rw [make] at hm
  split at hm
  · cases hm
  · cases hm
    refine ⟨by omega, by omega, List.length_replicate, rfl, rfl, List.length_replicate, List.length_replicate, ?_, ?_, fun i => ?_, fun i => ?_,
      fun k _ => ?_, fun batch hbatch => by cases hbatch⟩
    · show 0 < n.toNat
      omega
    · intro i x hx
      dsimp only [start] at hx
      rw [queueAt_replicate] at hx
      cases hx
    · dsimp only [start]
      rw [queueAt_replicate]
      exact Nat.zero_le _
    · refine ⟨[], ?_, .slnil, fun _ => ?_⟩
      · dsimp only [start]
        rw [queueAt_replicate]
        rfl
      · simp [start, List.getD_eq_getElem?_getD, List.getElem?_replicate]
        split <;> rfl
    · simp [start, List.getD_eq_getElem?_getD, List.getElem?_replicate]
      split <;> rfl

/-! ## Who is served -/

/-- A stream that has a frame in `s` has been served since, or has still fewer
streams before it; nothing is owed once the batcher is stopped. -/
def Owed (n size i : Nat) (s t : State π) : Prop :=
  t.batcher.stopped = true ∨ ∃ new, t.batches = s.batches ++ new ∧
    ((∃ batch ∈ new, ∃ f ∈ batch, own i f = true) ∨
      queueAt t.batcher.queues i ≠ [] ∧ before n t.batcher.rr i + new.length = before n s.batcher.rr i ∧
        (new ≠ [] → size ≤ before n t.batcher.rr i + 1))

theorem Owed.finish (hsize : 0 < size) (hi : i < n) (hinv : Inv n size depth t) (h : Owed n size i s t) (k : Nat) :
    Owed n size i s (t.finish k) := by
  obtain hstop | ⟨new, hnew, hserved | ⟨hqueue, hbefore, -⟩⟩ := h
  · exact .inl hstop
  · refine .inr ⟨new ++ [(gather t.batcher).2], by rw [State.finish, hnew, List.append_assoc], .inl ?_⟩
    obtain ⟨batch, hbatch, hf⟩ := hserved
    exact ⟨batch, List.mem_append_left _ hbatch, hf⟩
  · refine .inr ⟨new ++ [(gather t.batcher).2], by rw [State.finish, hnew, List.append_assoc], ?_⟩
    obtain ⟨-, -, hqueues, -, -⟩ := gather_spec hinv.placed
    have hrr := hinv.rr
    by_cases hmine : (gather t.batcher).2.filter (own i) = []
    · -- it has been passed over, for there were too many before it
      refine .inr ?_
      have hfar : size ≤ before n t.batcher.rr i := by
        by_contra hnear
        obtain ⟨f, queue, hf⟩ := List.exists_cons_of_ne_nil hqueue
        have hmem : f ∈ (gather t.batcher).2 := by
          refine mem_gather ?_ ?_ ?_ hf
          · rw [hinv.places]; exact hrr
          · rw [hinv.places]; exact hi
          · rw [hinv.places, hinv.sizeIs]; omega
        have hown : own i f = true := by
          have := hinv.placed i f (by rw [hf]; exact List.mem_cons_self) i
          simpa using this
        have hin : f ∈ (gather t.batcher).2.filter (own i) := List.mem_filter.mpr ⟨hmem, hown⟩
        rw [hmine] at hin
        cases hin
      have hnext : (t.finish k).batcher.rr = (t.batcher.rr + 1) % n := by rw [← hinv.places]; rfl
      have hstill : queueAt (t.finish k).batcher.queues i = queueAt t.batcher.queues i := by
        rw [hqueues i, hmine]
        rfl
      rw [hnext, before_succ hrr hi (by omega), hstill]
      refine ⟨hqueue, ?_, fun _ => by omega⟩
      simp
      omega
    · obtain ⟨f, rest, hf⟩ := List.exists_cons_of_ne_nil hmine
      have hin : f ∈ (gather t.batcher).2.filter (own i) := by rw [hf]; exact List.mem_cons_self
      obtain ⟨hmem, hown⟩ := List.mem_filter.mp hin
      exact .inl ⟨_, List.mem_append_right _ List.mem_cons_self, f, hmem, hown⟩

theorem Owed.step (hsize : 0 < size) (hi : i < n) (hinv : Inv n size depth t) (h : Owed n size i s t) (hs : step t a = some s') :
    Owed n size i s s' := by
  obtain ⟨f, rfl⟩ | ⟨discard, rfl⟩ | ⟨takers, rfl⟩ | ⟨k, rfl⟩ := step_cases hs
  · cases hs
    obtain heq | ⟨k, queue, drops, hk, -, heq, -⟩ := enqueue_cases t.batcher f
    · rw [heq]
      exact h
    · rw [heq]
      obtain hstop | ⟨new, hnew, hserved | ⟨hqueue, hrest⟩⟩ := h
      · exact .inl hstop
      · exact .inr ⟨new, hnew, .inl hserved⟩
      · refine .inr ⟨new, hnew, .inr ⟨?_, hrest⟩⟩
        dsimp only
        rw [queueAt_set hk]
        split
        · simp
        · exact hqueue
  · cases hs
    exact .inl rfl
  · exact h
  · exact h.finish hsize hi hinv k

/-! ## No empty batches -/

theorem queued_eq_zero : queued b = 0 ↔ ∀ i, queueAt b.queues i = [] := by
  rw [queued, List.sum_eq_zero_iff_forall_eq_nat]
  constructor
  · intro h i
    rw [queueAt, List.getD_eq_getElem?_getD]
    cases hget : b.queues[i]? with
    | none => rfl
    | some queue => exact List.length_eq_zero_iff.mp (h _ (List.mem_map_of_mem (List.mem_of_getElem? hget)))
  · intro h k hk
    obtain ⟨queue, hqueue, rfl⟩ := List.mem_map.mp hk
    obtain ⟨i, hi⟩ := List.mem_iff_getElem?.mp hqueue
    have hempty := h i
    rw [queueAt, List.getD_eq_getElem?_getD, hi] at hempty
    exact List.length_eq_zero_iff.mpr hempty

theorem gather_ne_nil (hsize : 0 < size) (hinv : Inv n size depth s) (hqueued : queued s.batcher ≠ 0) : (gather s.batcher).2 ≠ [] := by
  rw [Ne, queued_eq_zero, not_forall] at hqueued
  obtain ⟨i, hi⟩ := hqueued
  obtain ⟨f, queue, hf⟩ := List.exists_cons_of_ne_nil hi
  have hlt : i < s.batcher.queues.length := by
    by_contra hge
    rw [queueAt, List.getD_eq_getElem?_getD, List.getElem?_eq_none (by omega)] at hi
    exact hi rfl
  have hin : f ∈ (places s.batcher.queues.length s.batcher.rr).filterMap fun i => (queueAt s.batcher.queues i).head? :=
    List.mem_filterMap.mpr ⟨i, mem_places.mpr hlt, by rw [hf]; rfl⟩
  have hpos := List.length_pos_of_mem hin
  rw [gather_eq, ← List.length_pos_iff, List.length_take, List.length_append, hinv.sizeIs]
  omega

/-- One thread takes, and while it waits for more there is a frame. -/
def Alone (t₀ : Nat) (s : State π) : Prop :=
  s.batcher.stopped = true ∨
    (∀ t, s.takers t ≠ .out → t = t₀) ∧ (∀ t deadline, s.takers t = .filling deadline → queued s.batcher ≠ 0) ∧
      ∀ batch ∈ s.batches, batch ≠ []

variable {t₀ k : Nat}

/-- The thread has gone on, and no other has. -/
theorem alone_update (honly : ∀ t, s.takers t ≠ .out → t = t₀) (hk : k = t₀) (stage : Stage) :
    ∀ t, Function.update s.takers k stage t ≠ .out → t = t₀ := by
  intro t ht
  by_cases htk : t = k
  · exact htk.trans hk
  · rw [Function.update_of_ne htk] at ht
    exact honly t ht

theorem Alone.finish (hsize : 0 < size) (hinv : Inv n size depth s) (honly : ∀ t, s.takers t ≠ .out → t = t₀)
    (hbatches : ∀ batch ∈ s.batches, batch ≠ []) (hqueued : queued s.batcher ≠ 0) (hk : k = t₀) : Alone t₀ (s.finish k) := by
  refine .inr ⟨alone_update honly hk .out, fun t deadline ht => ?_, fun batch hbatch => ?_⟩
  · -- no thread but this one was in the wait
    have hfilling : Function.update s.takers k .out t = .filling deadline := ht
    have hother : t = k := (alone_update honly hk .out t (by rw [hfilling]; simp)).trans hk.symm
    rw [hother, Function.update_self] at hfilling
    cases hfilling
  · obtain hbatch | hbatch := List.mem_append.mp hbatch
    · exact hbatches batch hbatch
    · cases List.mem_singleton.mp hbatch
      exact gather_ne_nil hsize hinv hqueued

theorem Alone.step (hsize : 0 < size) (hinv : Inv n size depth s) (h : Alone t₀ s) (ha : ∀ t, a = .take t → t = t₀)
    (hs : step s a = some s') : Alone t₀ s' := by
  cases a with
  | enqueue f =>
    cases hs
    obtain heq | ⟨k, queue, drops, hk, -, heq, -⟩ := enqueue_cases s.batcher f
    · rw [heq]
      exact h
    · rw [heq]
      obtain hstop | ⟨honly, hqueued, hbatches⟩ := h
      · exact .inl hstop
      · refine .inr ⟨honly, fun t deadline ht => ?_, hbatches⟩
        rw [Ne, queued_eq_zero, not_forall]
        exact ⟨k, by simp [queueAt_set hk]⟩
  | stop discard =>
    cases hs
    exact .inl rfl
  | take t =>
    simp only [FrameBatcher.step] at hs
    split at hs <;> cases hs
    obtain hstop | ⟨honly, hqueued, hbatches⟩ := h
    · exact .inl hstop
    · refine .inr ⟨alone_update honly (ha t rfl) .waiting, fun t' deadline ht' => ?_, hbatches⟩
      by_cases htt : t' = t
      · subst htt
        cases (Function.update_self t' .waiting s.takers).symm.trans ht'
      · exact hqueued t' deadline ((Function.update_of_ne htt ..).symm.trans ht')
  | wake t now =>
    simp only [FrameBatcher.step] at hs
    split at hs
    · next hstage =>
      obtain hstop | ⟨honly, hqueued, hbatches⟩ := h
      · rw [if_pos hstop] at hs
        cases hs
        exact .inl hstop
      · have ht : t = t₀ := honly t (by rw [hstage]; simp)
        split at hs
        · next hstop =>
          cases hs
          exact .inl hstop
        · split at hs
          · cases hs
          · next hsome =>
            split at hs <;> cases hs
            · refine .inr ⟨alone_update honly ht _, fun t' deadline _ => hsome, hbatches⟩
            · exact Alone.finish hsize hinv honly hbatches hsome ht
    · cases hs
  | fill t now =>
    simp only [FrameBatcher.step] at hs
    split at hs
    · next deadline hstage =>
      split at hs <;> cases hs
      obtain hstop | ⟨honly, hqueued, hbatches⟩ := h
      · exact .inl hstop
      · exact Alone.finish hsize hinv honly hbatches (hqueued t deadline hstage) (honly t (by rw [hstage]; simp))
    · cases hs

/-! ## The batcher -/

/-- **No frame is lost uncounted**, in every run: the queue of a stream is the last of
the frames that have been let in, at most as many as its depth, and what is before
them has been taken, in the same order, or dropped, as `drops` counts while the
batcher is not stopped; a batch has no more than there is room, and two of a stream;
`histogram` counts the batches by their lengths; and where one thread takes, no batch
is empty while the batcher is not stopped. -/
theorem frames_accounted {n b wait : Int} {d : Nat} {made : Batcher π} (hm : make n b wait d = some made) {as : List (Action π)} {s : State π}
    (hr : run step (start made) as = some s) :
    (∀ i, (queueAt s.batcher.queues i).length ≤ d ∧ ∃ gone, s.given.filter (own i) = gone ++ queueAt s.batcher.queues i ∧
      (s.batches.flatten.filter (own i)).Sublist gone ∧
      (s.batcher.stopped = false → gone.length = (s.batches.flatten.filter (own i)).length + s.batcher.drops.getD i 0)) ∧
    (∀ batch ∈ s.batches, batch.length ≤ b.toNat ∧ ∀ i, (batch.filter (own i)).length ≤ 2) ∧
    (∀ k ≤ b.toNat, s.batcher.hist.getD k 0 = s.batches.countP (·.length = k)) ∧
    ∀ t₀, (∀ t, .take t ∈ as → t = t₀) → s.batcher.stopped = false → ∀ batch ∈ s.batches, batch ≠ [] := by
  obtain ⟨hsize, hd, hstart⟩ := inv_start hm
  have hinv : Inv n.toNat b.toNat d s := run_invariant' (fun s a s' hi hs => hi.step hd hs) hstart hr
  refine ⟨fun i => ⟨hinv.room i, hinv.account i⟩, hinv.batches, hinv.counts, fun t₀ honly hrun => ?_⟩
  have hboth : Inv n.toNat b.toNat d s ∧ Alone t₀ s := by
    refine run_invariant (I := fun s => Inv n.toNat b.toNat d s ∧ Alone t₀ s) (C := fun _ a => ∀ t, a = .take t → t = t₀)
      (fun s a s' ha hi hs => ⟨hi.1.step hd hs, hi.2.step hsize hi.1 ha hs⟩)
      (meets_of_forall fun a ha t hat => honly t (by rw [← hat]; exact ha)) ⟨hstart, .inr ⟨?_, ?_, ?_⟩⟩ hr
    · exact fun t ht => absurd rfl ht
    · exact fun t deadline ht => by cases ht
    · exact fun batch hbatch => by cases hbatch
  obtain hstop | ⟨-, -, hbatches⟩ := hboth.2
  · rw [hrun] at hstop
    cases hstop
  · exact hbatches

/-- A frame of a stream, with its number. -/
def frame (stream seq : Nat) : BatchFrame Unit where
  stream := stream
  seq := seq
  timestamp := 0
  rgb := ()

/-- Three frames of a stream come, where two fit in, and one of another. -/
def crowded : List (Action Unit) :=
  [.enqueue (frame 1 0), .enqueue (frame 1 1), .enqueue (frame 0 2), .enqueue (frame 1 3), .take 7, .wake 7 0]

theorem frames_accounted_crowded : ∃ (made : Batcher Unit) (s : State Unit), make 2 2 0 2 = some made ∧
    run step (start made) crowded = some s ∧ s.batches.map (fun batch => batch.map fun f => f.seq) = [[2, 1]] ∧ s.batcher.drops = [0, 1] ∧
    ∃ gone, s.given.filter (own 1) = gone ++ queueAt s.batcher.queues 1 ∧ (s.batches.flatten.filter (own 1)).Sublist gone ∧
      (s.batcher.stopped = false → gone.length = (s.batches.flatten.filter (own 1)).length + s.batcher.drops.getD 1 0) := by
  obtain ⟨made, hm⟩ : ∃ made : Batcher Unit, make 2 2 0 2 = some made := ⟨_, rfl⟩
  obtain ⟨s, hr⟩ : ∃ s, run step (start made) crowded = some s := by cases hm; exact ⟨_, rfl⟩
  refine ⟨made, s, hm, hr, ?_, ?_, ((frames_accounted hm hr).1 1).2⟩ <;> cases hm <;> cases hr <;> rfl

-- Where two threads take, one of them may be given nothing.
example : ((make 1 4 5 2).bind fun made =>
    run step (start made) [.enqueue (frame 0 1), .take 1, .take 2, .wake 1 0, .wake 2 0, .fill 1 5000000, .fill 2 5000000]).map
      (fun s => s.batches.map fun batch => batch.map fun f => f.seq) = some [[1], []] := by decide

/-- **No stream is passed over for long**: of so many batches as there are streams
less the room in one, and one more, that are taken since a stream has had a frame,
one has a frame of it, unless the batcher is stopped. -/
theorem streams_served {n b wait : Int} {d : Nat} {made : Batcher π} (hm : make n b wait d = some made) {as : List (Action π)} {s : State π}
    (hr : run step (start made) as = some s) {i : Nat} (hi : (i : Int) < n) (hqueue : queueAt s.batcher.queues i ≠ [])
    {more : List (Action π)} {t : State π} (hmore : run step s more = some t) (hrun : t.batcher.stopped = false) :
    ∃ new, t.batches = s.batches ++ new ∧ (n.toNat < new.length + min n.toNat b.toNat → ∃ batch ∈ new, ∃ f ∈ batch, f.stream = i) := by
  obtain ⟨hsize, hd, hstart⟩ := inv_start hm
  have hinv : Inv n.toNat b.toNat d s := run_invariant' (fun s a s' hi hs => hi.step hd hs) hstart hr
  have hlt : i < n.toNat := by omega
  have hboth : Inv n.toNat b.toNat d t ∧ Owed n.toNat b.toNat i s t := by
    refine run_invariant' (I := fun t => Inv n.toNat b.toNat d t ∧ Owed n.toNat b.toNat i s t)
      (fun t a t' hi hs => ⟨hi.1.step hd hs, hi.2.step hsize hlt hi.1 hs⟩) ⟨hinv, .inr ⟨[], by simp, .inr ⟨hqueue, rfl, ?_⟩⟩⟩ hmore
    exact fun hne => absurd rfl hne
  obtain hstop | ⟨new, hnew, hserved⟩ := hboth.2
  · rw [hrun] at hstop
    cases hstop
  · refine ⟨new, hnew, fun hlong => ?_⟩
    obtain ⟨batch, hbatch, f, hf, hown⟩ | ⟨-, hbefore, hfar⟩ := hserved
    · exact ⟨batch, hbatch, f, hf, by simpa [own] using hown⟩
    · have hfirst := before_lt hinv.rr hlt
      have hne : new ≠ [] := by
        rintro rfl
        rw [List.length_nil] at hlong
        omega
      have := hfar hne
      omega

/-- Three streams with a frame each, and batches of two. -/
def waiting : List (Action Unit) := [.enqueue (frame 0 1), .enqueue (frame 1 2), .enqueue (frame 2 3)]

def twice : List (Action Unit) := [.take 7, .wake 7 0, .enqueue (frame 0 4), .take 7, .wake 7 0]

theorem streams_served_waiting : ∃ (made : Batcher Unit) (s t : State Unit), make 3 2 0 2 = some made ∧
    run step (start made) waiting = some s ∧ run step s twice = some t ∧ ∃ new, t.batches = s.batches ++ new ∧ new.length = 2 ∧
      ∃ batch ∈ new, ∃ f ∈ batch, f.stream = 2 := by
  obtain ⟨made, hm⟩ : ∃ made : Batcher Unit, make 3 2 0 2 = some made := ⟨_, rfl⟩
  obtain ⟨s, hr⟩ : ∃ s, run step (start made) waiting = some s := by cases hm; exact ⟨_, rfl⟩
  obtain ⟨t, ht⟩ : ∃ t, run step s twice = some t := by cases hm; cases hr; exact ⟨_, rfl⟩
  have hqueue : queueAt s.batcher.queues 2 ≠ [] := by cases hm; cases hr; decide
  have hrun : t.batcher.stopped = false := by cases hm; cases hr; cases ht; rfl
  have hlen : t.batches.length = s.batches.length + 2 := by cases hm; cases hr; cases ht; rfl
  obtain ⟨new, hnew, hserved⟩ := streams_served hm hr (i := 2) (by decide) hqueue ht hrun
  rw [hnew, List.length_append] at hlen
  exact ⟨made, s, t, hm, hr, ht, new, hnew, by omega, hserved (by simp; omega)⟩

end RetailVision.FrameBatcher
