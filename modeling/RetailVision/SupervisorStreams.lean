/-
The streams a supervisor lists, in every run: what holds of those it was
started with and of those its commands add holds of each
(`GoodInv`, whatever the property), and its shards hold no more than they
may (`CapacityInv`). Both carry over to what is written to the streams file.
-/
import RetailVision.SupervisorLedger
import Mathlib.Data.List.GetD

set_option linter.all false

namespace RetailVision.Supervisor

open Lib

variable {cfg : Config} {s s' : State} {a : Action} {h : Nat} {c : Request} {lists : List (List Stream)}

/-! ## The request of an operation -/

def Op.request : Op → Option Request
  | .idle => none
  | .spawning st | .awaiting _ st => some (.addStream st)
  | .sending _ _ c | .waiting _ _ c _ | .committing _ c | .discarding _ c _ | .persisting c => some c

theorem takeUp_request {c' : Request} (hr : (takeUp cfg s c).op.request = some c') : c' = c := by
  unfold takeUp at hr
  cases c <;> simp only at hr <;> (repeat' split at hr) <;> cases hr <;> rfl

/-- An operation is about the command taken up for it. -/
theorem step_request (hs : step cfg s a = some s') (hr : s'.op.request = some c) :
    s.op.request = some c ∨ a = .takeUp c := by
  cases step_view hs with
  | takeUp => exact .inr (congrArg Action.takeUp (takeUp_request hr).symm)
  | startTimeout ho | sendFails ho | takeError ho | replyTimeout ho =>
    rcases fail_op with h' | ⟨-, h'⟩ <;> rw [h'] at hr <;> cases hr
    rw [ho]
    exact .inl rfl
  | spawn ho | shardStarted ho | send ho | takeOk ho => cases hr; rw [ho]; exact .inl rfl
  | commit ho =>
    cases ‹Request› <;> cases hr <;> rw [ho] <;> exact .inl rfl
  | spawnFails | discard | persist | persistFails => cases hr
  | worker | watchdog | restartShard => exact .inl hr
  | readerRecv => rw [receive_same.2.2.2.1] at hr; exact .inl hr

/-! ## A property of the streams listed -/

theorem lists_apply_of_update {d : Handle} {k : Nat} (hh : s'.heap = Function.update s.heap h d)
    (hd : d.streams = (s.heap h).streams) : s'.lists k = s.lists k := congrFun (lists_update_of_eq hh hd) k

/-- Each list after a step is one of before, or a new one, or what a commit
makes of one. -/
theorem step_lists_eq (hs : step cfg s a = some s') (k : Nat) :
    (∃ k', s'.lists k = s.lists k') ∨ s'.lists k = [] ∨
      ∃ h c, s.op.holds = some (h, c) ∧ s'.lists k = commitStreams (s.lists h) c := by
  cases step_view hs with
  | takeUp => exact .inl ⟨k, congrFun (lists_congr (takeUp_same ..).heap) k⟩
  | startTimeout | replyTimeout => exact .inl ⟨k, congrFun (lists_congr fail_same.heap) k⟩
  | sendFails =>
    exact .inl ⟨k, congrFun (lists_congr (fail_same (s := { s with reqCounter := s.reqCounter + 1 })).heap) k⟩
  | @takeError _ _ _ q => exact .inl ⟨k, congrFun (lists_congr (fail_same (s := s.popReply q)).heap) k⟩
  | spawn =>
    rw [lists_update (s := s) (d := newHandle s.shards.length []) rfl]
    by_cases hk : k = s.next
    · subst hk
      exact .inr (.inl (Function.update_self ..))
    · exact .inl ⟨k, Function.update_of_ne hk ..⟩
  | spawnFails | shardStarted | takeOk | persistFails => exact .inl ⟨k, rfl⟩
  | send | discard | worker | watchdog => exact .inl ⟨k, lists_apply_of_update rfl rfl⟩
  | @commit h c ho =>
    rw [(commit_commits ho).lists]
    by_cases hk : k = h
    · subst hk
      exact .inr (.inr ⟨k, c, by rw [ho]; rfl, Function.update_self ..⟩)
    · exact .inl ⟨k, Function.update_of_ne hk ..⟩
  | persist =>
    left
    unfold State.persistStreams
    split <;> exact ⟨k, rfl⟩
  | readerRecv => exact .inl ⟨k, congrFun receive_same.1 k⟩
  | @restartShard h =>
    rw [restartShard_lists]
    by_cases hk : k = s.next
    · subst hk
      exact .inl ⟨h, Function.update_self ..⟩
    · exact .inl ⟨k, Function.update_of_ne hk ..⟩

theorem request_of_holds {o : Op} (ho : o.holds = some (h, c)) : o.request = some c := by
  cases o <;> cases ho <;> rfl

/-- A stream listed was so before, if in another handle, or is of the commit. -/
theorem step_lists_mem (hs : step cfg s a = some s') {k : Nat} {st : Stream} (hm : st ∈ s'.lists k) :
    (∃ k', st ∈ s.lists k') ∨ ∃ h c, s.op.request = some c ∧ st ∈ commitStreams (s.lists h) c := by
  rcases step_lists_eq hs k with ⟨k', hk⟩ | hk | ⟨h, c, ho, hk⟩ <;> rw [hk] at hm
  · exact .inl ⟨k', hm⟩
  · cases hm
  · exact .inr ⟨h, c, request_of_holds ho, hm⟩

theorem start_lists_mem (h : Nat) : (start lists).lists h ∈ lists ∨ (start lists).lists h = [] := by
  have hl : (start lists).lists h = lists.getD h [] := rfl
  rw [hl]
  by_cases hh : h < lists.length
  · rw [List.getD_eq_getElem _ _ hh]
    exact .inl (List.getElem_mem hh)
  · exact .inr (List.getD_eq_default _ _ (Nat.le_of_not_lt hh))

section Good

variable {Good : Stream → Prop} {Allowed : Request → Prop}

/-- A request keeps a property of streams: what it adds has it, and what it
changes has it still. -/
structure Keeps (Good : Stream → Prop) (c : Request) : Prop where
  add : ∀ st, c = .addStream st → Good st
  set : ∀ sid v, c = .setThreshold sid v → ∀ st, Good st → Good (st.setThreshold v)

theorem Keeps.commitStreams {l : List Stream} (hc : Keeps Good c) (hl : ∀ st ∈ l, Good st) :
    ∀ st ∈ commitStreams l c, Good st := by
  intro st hst
  cases c with
  | addStream st' =>
    rcases List.mem_append.mp hst with hst | hst
    · exact hl st hst
    · rw [List.mem_singleton.mp hst]; exact hc.add st' rfl
  | removeStream sid => exact hl st (List.mem_of_mem_filter hst)
  | setThreshold sid v =>
    obtain ⟨st', hst', rfl⟩ := List.mem_map.mp hst
    split
    · exact hc.set sid v rfl st' (hl st' hst')
    · exact hl st' hst'

structure GoodInv (Good : Stream → Prop) (s : State) : Prop where
  lists : ∀ h, ∀ st ∈ s.lists h, Good st
  request : ∀ c, s.op.request = some c → Keeps Good c
  persisted : ∀ l, s.persisted = some l → ∀ st ∈ l, Good st

theorem step_goodInv (ha : ∀ c, a = .takeUp c → Keeps Good c) (hi : GoodInv Good s) (hs : step cfg s a = some s') :
    GoodInv Good s' where
  lists k st hst := by
    rcases step_lists_mem hs hst with ⟨k', hst⟩ | ⟨h, c, hc, hst⟩
    · exact hi.lists k' st hst
    · exact (hi.request c hc).commitStreams (hi.lists h) st hst
  request c hc := by
    rcases step_request hs hc with hc | ha'
    · exact hi.request c hc
    · exact ha c ha'
  persisted l hl st hst := by
    rcases step_persisted hs with hp | ⟨-, hp⟩ <;> rw [hp] at hl
    · exact hi.persisted l hl st hst
    · cases hl
      obtain ⟨h, -, hst⟩ := mem_streams.mp hst
      exact hi.lists h st hst

/-- **What each start stream has and each command keeps, every stream
listed and every stream written has.** -/
theorem run_goodInv {as : List Action} (hl : ∀ l ∈ lists, ∀ st ∈ l, Good st)
    (ha : ∀ c, .takeUp c ∈ as → Keeps Good c) (hr : run (step cfg) (start lists) as = some s) : GoodInv Good s := by
  have hmeets : Meets (step cfg) (fun _ a => ∀ c, a = .takeUp c → Keeps Good c) (start lists) as :=
    meets_of_forall fun a hm c hc => ha c (by rw [← hc]; exact hm)
  refine run_invariant (I := GoodInv Good) (fun _ _ _ h hi hs => step_goodInv h hi hs) hmeets ?_ hr
  refine ⟨fun h st hst => ?_, fun c hc => absurd hc (by simp [start, Op.request]), fun l hl => absurd hl (by simp [start])⟩
  rcases start_lists_mem h with hmem | hnil
  · exact hl _ hmem st hst
  · rw [hnil] at hst
    cases hst

end Good

/-! ## How many streams are listed -/

theorem leastLoaded_filter {p : Nat → Bool} {hs : List Nat} {heap : Nat → Handle}
    (hl : leastLoaded heap (hs.filter p) = some h) : p h = true := List.of_mem_filter (leastLoaded_mem hl)

/-- A shard is picked while it is below `max_streams_per_worker`. -/
theorem pickShardForAdd_lt (hp : pickShardForAdd cfg s = some h) (hpos : 0 < cfg.maxStreamsPerWorker) :
    (s.lists h).length < cfg.maxStreamsPerWorker := by
  unfold pickShardForAdd at hp
  simp only [if_neg (Nat.ne_of_gt hpos)] at hp
  simpa [State.lists] using leastLoaded_filter hp

theorem takeUp_picks {st : Stream} (ho : (takeUp cfg s c).op.holds = some (h, .addStream st)) :
    pickShardForAdd cfg s = some h := by
  unfold takeUp at ho
  cases c with
  | addStream st' =>
    simp only at ho
    (repeat' split at ho) <;> try cases ho
    next hp => exact hp
  | removeStream | setThreshold =>
    simp only at ho
    split at ho <;> cases ho

theorem takeUp_spawning {st : Stream} {n : Nat} (ho : (takeUp cfg s c).op = .spawning st)
    (hw : cfg.workers = some n) : s.shards.length < n := by
  unfold takeUp at ho
  rw [hw] at ho
  cases c with
  | addStream st' =>
    simp only at ho
    (repeat' split at ho) <;> cases ho
    next hn => exact Nat.lt_of_not_le hn
  | removeStream | setThreshold =>
    simp only at ho
    split at ho <;> cases ho

/-- An add holds a shard it picked, or the one spawned for it. -/
theorem step_holds_add {st : Stream} (hs : step cfg s a = some s') (ho : s'.op.holds = some (h, .addStream st)) :
    (s.op.holds = some (h, .addStream st) ∧ ∀ k c, s.op = .committing k c → a ≠ .commit) ∨
      (pickShardForAdd cfg s = some h ∧ s'.lists = s.lists) ∨ (s.op.fresh = some h ∧ s'.lists = s.lists) := by
  cases step_view hs with
  | takeUp => exact .inr (.inl ⟨takeUp_picks ho, lists_congr (takeUp_same ..).heap⟩)
  | startTimeout | sendFails | takeError | replyTimeout =>
    rcases fail_op with h' | ⟨-, h'⟩ <;> rw [h'] at ho <;> cases ho
  | shardStarted hso => cases ho; exact .inr (.inr ⟨by rw [hso]; rfl, rfl⟩)
  | send hso => cases ho; exact .inl ⟨by rw [hso]; rfl, nofun⟩
  | takeOk hso => cases ho; exact .inl ⟨by rw [hso]; rfl, nofun⟩
  | commit => cases ‹Request› <;> cases ho
  | spawn | spawnFails | discard | persist | persistFails => cases ho
  | watchdog | restartShard => exact .inl ⟨ho, nofun⟩
  | worker hh => exact .inl ⟨ho, by rintro - - - rfl; cases hh⟩
  | readerRecv => rw [receive_same.2.2.2.1] at ho; exact .inl ⟨ho, nofun⟩

/-- Handles are added by a spawn alone. -/
theorem step_shards_length (hs : step cfg s a = some s') :
    s'.shards.length ≤ s.shards.length ∨
      (∃ st, s.op = .spawning st) ∧ s'.shards.length = s.shards.length + 1 := by
  rcases step_shards hs with he | ⟨st, ho, -, rfl⟩ | ⟨h, c, e, -, -, rfl⟩ | ⟨h, -, -, rfl⟩
  · rw [he]; exact .inl (Nat.le_refl _)
  · exact .inr ⟨⟨st, ho⟩, by simp [State.spawnShard]⟩
  · exact .inl List.erase_sublist.length_le
  · exact .inl (by simp [State.restartShard])

theorem step_spawning {st : Stream} (hs : step cfg s a = some s') (ho : s'.op = .spawning st) :
    (s.op = .spawning st ∧ s'.shards.length = s.shards.length) ∨
      ∀ n, cfg.workers = some n → s'.shards.length < n := by
  cases step_view hs with
  | takeUp => rw [(takeUp_same ..).shards]; exact .inr fun n hn => takeUp_spawning ho hn
  | startTimeout | sendFails | takeError | replyTimeout =>
    rcases fail_op with h' | ⟨-, h'⟩ <;> rw [h'] at ho <;> cases ho
  | commit => cases ‹Request› <;> cases ho
  | spawn | spawnFails | shardStarted | send | takeOk | discard | persist | persistFails => cases ho
  | worker | watchdog => exact .inl ⟨ho, rfl⟩
  | restartShard => exact .inl ⟨ho, by simp [State.restartShard]⟩
  | readerRecv => rw [receive_same.2.2.2.1] at ho; exact .inl ⟨ho, by rw [receive_same.2.1]⟩

/-- Every handle is within `max_streams_per_worker`, the one an add holds
below it, and there are no more handles than workers. -/
structure CapacityInv (cfg : Config) (s : State) : Prop where
  wf : Wf s
  held_lt : ∀ h c, s.op.holds = some (h, c) → h < s.next
  lists : ∀ h, (s.lists h).length ≤ cfg.maxStreamsPerWorker
  adding : ∀ h st, s.op.holds = some (h, .addStream st) → (s.lists h).length < cfg.maxStreamsPerWorker
  shards : ∀ n, cfg.workers = some n → s.shards.length ≤ n
  spawning : ∀ st n, s.op = .spawning st → cfg.workers = some n → s.shards.length < n

theorem commitStreams_length {l : List Stream} (c : Request) :
    (commitStreams l c).length ≤ l.length ∨ (∃ st, c = .addStream st) ∧ (commitStreams l c).length = l.length + 1 := by
  cases c with
  | addStream st => exact .inr ⟨⟨st, rfl⟩, by simp [commitStreams]⟩
  | removeStream sid => exact .inl (List.length_filter_le _ l)
  | setThreshold sid v => exact .inl (by simp [commitStreams])

theorem step_capacityInv (hpos : 0 < cfg.maxStreamsPerWorker) (hi : CapacityInv cfg s) (hs : step cfg s a = some s') :
    CapacityInv cfg s' where
  wf := step_wf hi.wf hs
  held_lt h c ho := by
    refine lt_of_lt_of_le ?_ (step_next hs)
    rcases step_holds hs ho with ⟨ho, -⟩ | ⟨hh, -⟩ | ⟨st, ho, -⟩
    · exact hi.held_lt h c ho
    · exact hi.wf.lt h hh
    · exact (hi.wf.fresh h (by rw [ho]; rfl)).1
  lists k := by
    rcases step_lists_eq hs k with ⟨k', hk⟩ | hk | ⟨h, c, ho, hk⟩ <;> rw [hk]
    · exact hi.lists k'
    · exact Nat.zero_le _
    · rcases commitStreams_length (l := s.lists h) c with hle | ⟨⟨st, rfl⟩, hlen⟩
      · exact hle.trans (hi.lists h)
      · have := hi.adding h st ho
        omega
  adding h st ho := by
    rcases step_holds_add hs ho with ⟨ho, hc⟩ | ⟨hp, hl⟩ | ⟨hf, hl⟩
    · rw [step_lists (hi.held_lt _ _ ho) hs hc]; exact hi.adding h st ho
    · rw [hl]; exact pickShardForAdd_lt hp hpos
    · rw [hl, (hi.wf.fresh h hf).2]; exact hpos
  shards n hn := by
    have hle := hi.shards n hn
    rcases step_shards_length hs with hl | ⟨⟨st, ho⟩, hl⟩
    · omega
    · have := hi.spawning st n ho hn
      omega
  spawning st n ho hn := by
    rcases step_spawning hs ho with ⟨ho, hl⟩ | hlt
    · rw [hl]; exact hi.spawning st n ho hn
    · exact hlt n hn

theorem start_capacityInv (hl : ∀ l ∈ lists, l.length ≤ cfg.maxStreamsPerWorker)
    (hn : ∀ n, cfg.workers = some n → lists.length ≤ n) : CapacityInv cfg (start lists) where
  wf := start_wf
  held_lt := nofun
  lists h := by
    rcases start_lists_mem h with hmem | hnil
    · exact hl _ hmem
    · rw [hnil]; exact Nat.zero_le _
  adding := nofun
  shards n h := by
    have hs : (start lists).shards.length = lists.length := List.length_range
    rw [hs]
    exact hn n h
  spawning := nofun

theorem length_flatMap_le {β : Type} {f : Nat → List β} {bins : List Nat} {n : Nat} (h : ∀ b, (f b).length ≤ n) :
    (bins.flatMap f).length ≤ bins.length * n := by
  induction bins with
  | nil => simp
  | cons b bins ih =>
    have := h b
    simp only [List.flatMap_cons, List.length_append, List.length_cons, Nat.succ_mul]
    omega

/-- **With a number of workers, what is listed fits them.** -/
theorem CapacityInv.streams_length {n : Nat} (hi : CapacityInv cfg s) (hn : cfg.workers = some n) :
    s.streams.length ≤ n * cfg.maxStreamsPerWorker := by
  rw [State.streams_eq]
  exact (length_flatMap_le hi.lists).trans (Nat.mul_le_mul_right _ (hi.shards n hn))

/-- What is written to the streams file fits the workers too. -/
theorem run_persisted_length {as : List Action} {n : Nat} {l : List Stream} (hpos : 0 < cfg.maxStreamsPerWorker)
    (hn : cfg.workers = some n) (hl : ∀ l ∈ lists, l.length ≤ cfg.maxStreamsPerWorker) (hcount : lists.length ≤ n)
    (hr : run (step cfg) (start lists) as = some s) (hp : s.persisted = some l) :
    l.length ≤ n * cfg.maxStreamsPerWorker := by
  have hi := run_invariant' (I := fun s => CapacityInv cfg s ∧
      ∀ l, s.persisted = some l → l.length ≤ n * cfg.maxStreamsPerWorker) (fun s a s' hi hs => ?_) ?_ hr
  · exact hi.2 l hp
  · refine ⟨step_capacityInv hpos hi.1 hs, fun l hl => ?_⟩
    rcases step_persisted hs with hp | ⟨-, hp⟩ <;> rw [hp] at hl
    · exact hi.2 l hl
    · cases hl; exact hi.1.streams_length hn
  · exact ⟨start_capacityInv hl fun m hm => by rw [hn] at hm; cases hm; exact hcount, nofun⟩

/-- Something is written only where a file is named for it. -/
theorem run_persisted_file {as : List Action} {l : List Stream} (hr : run (step cfg) (start lists) as = some s)
    (hp : s.persisted = some l) : cfg.streamsFile = true := by
  have hi := run_invariant' (I := fun s => ∀ l, s.persisted = some l → cfg.streamsFile = true)
    (fun s a s' hi (hs : step cfg s a = some s') l hl => by
      rcases step_persisted hs with hp | ⟨hf, -⟩
      · exact hi l (hp ▸ hl)
      · exact hf) nofun hr
  exact hi l hp

end RetailVision.Supervisor
