/-
Where an added stream goes. `_pick_shard_for_add` says "None = full", and
`ops_add_stream` spawns a shard on `None`; but a shard that is restarting is
no candidate, however much room it has, so `None` may also mean that every
shard with room is being restarted (`spawns_beside_restarting`). Where that
is not the case when an add is taken up, a shard is spawned only once all
are full (`spawn_shards_full`).
-/
import RetailVision.PersistedStreams

set_option linter.all false

namespace RetailVision.Supervisor

open Lib

variable {cfg : Config} {s s' : State} {a : Action} {h : Nat} {c : Request} {st : Stream} {lists : List (List Stream)}

/-- The shard may hold another stream: it is below `max_streams_per_worker`,
which is no limit where it is 0. -/
def HasRoom (cfg : Config) (s : State) (h : Nat) : Prop :=
  cfg.maxStreamsPerWorker = 0 ∨ (s.heap h).streams.length < cfg.maxStreamsPerWorker

instance : Decidable (HasRoom cfg s h) := by unfold HasRoom; infer_instance

/-! ## The choice of a shard -/

theorem leastLoaded_isSome {heap : Nat → Handle} {hs : List Nat} : leastLoaded heap hs = none ↔ hs = [] := by
  cases hs with
  | nil => simp [leastLoaded]
  | cons k hs =>
    unfold leastLoaded
    split
    · simp
    · split <;> simp

/-- No shard is picked where none that is not restarting has room. -/
theorem pickShardForAdd_eq_none : pickShardForAdd cfg s = none ↔
    ∀ h ∈ s.shards, (s.heap h).restarting = false → ¬ HasRoom cfg s h := by
  unfold pickShardForAdd HasRoom
  by_cases hp : cfg.maxStreamsPerWorker = 0
  · simp [hp]
  · simp only [hp, if_false, leastLoaded_isSome, List.filter_eq_nil_iff, List.mem_filter]
    simp

/-- What made an add spawn a shard. -/
structure SpawnsFor (cfg : Config) (s : State) : Prop where
  belowMax : s.streams.length < cfg.maxStreams
  noneFree : ∀ h ∈ s.shards, (s.heap h).restarting = false → ¬ HasRoom cfg s h
  shared : s.hello ≠ some true
  workers : ∀ n, cfg.workers = some n → s.shards.length < n

theorem takeUp_spawnsFor (ho : (takeUp cfg s c).op = .spawning st) : c = .addStream st ∧ SpawnsFor cfg s := by
  unfold takeUp at ho
  cases c with
  | addStream st' =>
    simp only at ho
    split at ho <;> try cases ho
    next hmax =>
    split at ho <;> try cases ho
    next hpick =>
    split at ho <;> try cases ho
    next hello =>
    have hfree := pickShardForAdd_eq_none.mp hpick
    cases hw : cfg.workers with
    | none =>
      simp only [hw] at ho
      cases ho
      exact ⟨rfl, Nat.lt_of_not_le hmax, hfree, hello, fun n hn => by rw [hw] at hn; cases hn⟩
    | some n =>
      simp only [hw] at ho
      split at ho <;> cases ho
      next hn =>
        refine ⟨rfl, Nat.lt_of_not_le hmax, hfree, hello, fun m hm => ?_⟩
        rw [hw] at hm
        cases hm
        exact Nat.lt_of_not_le hn
  | removeStream | setThreshold =>
    simp only at ho
    split at ho <;> cases ho

/-! ## What a step leaves of the shards -/

/-- A shard spawned for an add waits for it; a restart puts another in the
old one's place, with its list. -/
theorem restartShard_loads (hw : Wf s) :
    (s.restartShard h).shards.map (s.restartShard h).lists = s.shards.map s.lists := by
  have hs : (s.restartShard h).shards = s.shards.map fun k => if k = h then s.next else k := rfl
  rw [hs, restartShard_lists, List.map_map]
  refine List.map_congr_left fun k hk => ?_
  have hne : k ≠ s.next := fun he => hw.next_notMem (he ▸ hk)
  by_cases hkh : k = h
  · subst hkh
    simp
  · simp [hkh, hne]

/-- An add about to spawn a shard has been so since it was taken up, and the
shards hold what they held then. -/
theorem step_spawning_loads (hw : Wf s) (hs : step cfg s a = some s') (ho : s'.op = .spawning st) :
    s'.shards.map s'.lists = s.shards.map s.lists ∧
      (s.op = .spawning st ∨ a = .takeUp (.addStream st) ∧ SpawnsFor cfg s) := by
  cases step_view hs with
  | takeUp =>
    obtain ⟨rfl, hf⟩ := takeUp_spawnsFor ho
    rw [(takeUp_same ..).shards, lists_congr (takeUp_same ..).heap]
    exact ⟨rfl, .inr ⟨rfl, hf⟩⟩
  | startTimeout | sendFails | takeError | replyTimeout =>
    rcases fail_op with h' | ⟨-, h'⟩ <;> rw [h'] at ho <;> cases ho
  | commit => cases ‹Request› <;> cases ho
  | spawn | spawnFails | shardStarted | send | takeOk | discard | persist | persistFails => cases ho
  | @worker h _ w =>
    have hl : (s.modify h (·.withWorker fun _ => w)).lists = s.lists := lists_update_of_eq rfl rfl
    rw [hl]
    exact ⟨rfl, .inl ho⟩
  | @watchdog h =>
    have hl : (s.modify h fun hd => { hd with restarting := true }).lists = s.lists := lists_update_of_eq rfl rfl
    rw [hl]
    exact ⟨rfl, .inl ho⟩
  | readerRecv =>
    rw [receive_same.2.2.2.1] at ho
    rw [receive_same.2.1, receive_same.1]
    exact ⟨rfl, .inl ho⟩
  | restartShard => exact ⟨restartShard_loads hw, .inl ho⟩

/-- Only the discard of a fresh shard takes one away. -/
theorem step_shards_length_ge (hs : step cfg s a = some s') :
    s.shards.length ≤ s'.shards.length ∨
      (∃ h, s.op.fresh = some h) ∧ s'.op.fresh = none ∧ s.shards.length ≤ s'.shards.length + 1 := by
  rcases step_shards hs with he | ⟨st, -, -, rfl⟩ | ⟨h, c, e, ho, -, rfl⟩ | ⟨h, -, -, rfl⟩
  · rw [he]; exact .inl (Nat.le_refl _)
  · left; simp [State.spawnShard]
  · have hlen : s.shards.length ≤ (s.shards.erase h).length + 1 := by
      have := List.length_erase (a := h) (l := s.shards)
      split at this <;> omega
    exact .inr ⟨⟨h, by rw [ho]; rfl⟩, rfl, hlen⟩
  · left; simp [State.restartShard]

/-- A fresh shard is one the operation has spawned. -/
theorem step_fresh (hs : step cfg s a = some s') (hf : s'.op.fresh = some h) :
    s.op.fresh = some h ∨ (∃ st, s.op = .spawning st ∧ s' = s.spawnShard st) ∧ a = .spawn ∧ h = s.next := by
  cases step_view hs with
  | takeUp => rcases takeUp_op with h' | ⟨st, h'⟩ | ⟨k, h'⟩ <;> rw [h'] at hf <;> cases hf
  | startTimeout ho =>
    rcases fail_op with h' | ⟨-, h'⟩ <;> rw [h'] at hf <;> cases hf
    rw [ho]
    exact .inl rfl
  | sendFails ho | takeError ho | replyTimeout ho =>
    rcases fail_op with h' | ⟨hfr, h'⟩ <;> rw [h'] at hf <;> cases hf
    rw [ho, hfr]
    exact .inl rfl
  | spawn ho => cases hf; exact .inr ⟨⟨_, ho, rfl⟩, rfl, rfl⟩
  | shardStarted ho => rw [ho]; exact .inl hf
  | @send k fresh c ho =>
    rw [ho]
    cases fresh <;> exact .inl hf
  | commit => cases ‹Request› <;> cases hf
  | spawnFails | takeOk | discard | persist | persistFails => cases hf
  | worker | watchdog | restartShard => exact .inl hf
  | readerRecv => rw [receive_same.2.2.2.1] at hf; exact .inl hf

/-! ## Spawning only when full -/

/-- Where an add taken up finds a shard with room, it finds one that is not
being restarted, or it is refused before it spawns any. -/
def PlacedOrRefused (cfg : Config) (s : State) : Action → Prop
  | .takeUp (.addStream _) => (∃ h ∈ s.shards, HasRoom cfg s h) →
      (∃ h ∈ s.shards, (s.heap h).restarting = false ∧ HasRoom cfg s h) ∨
        cfg.maxStreams ≤ s.streams.length ∨ s.hello = some true ∨
        ∃ n ∈ cfg.workers, n ≤ s.shards.length
  | _ => True

instance (s : State) (a : Action) : Decidable (PlacedOrRefused cfg s a) := by
  unfold PlacedOrRefused
  split <;> infer_instance

/-- Every shard holds as many streams as it may. -/
def Full (cfg : Config) (s : State) : Prop :=
  0 < cfg.maxStreamsPerWorker ∧ ∀ h ∈ s.shards, cfg.maxStreamsPerWorker ≤ (s.heap h).streams.length

/-- There is a shard besides the one spawned for an add, and all are full
when another is to be spawned. -/
structure PlacementInv (cfg : Config) (s : State) : Prop where
  wf : Wf s
  some_shard : 1 ≤ s.shards.length
  fresh : ∀ h, s.op.fresh = some h → 2 ≤ s.shards.length
  spawning : ∀ st, s.op = .spawning st → Full cfg s

/-- Fullness is a matter of the lists the shards hold. -/
theorem full_congr (hl : s'.shards.map s'.lists = s.shards.map s.lists) : Full cfg s → Full cfg s' := by
  intro hf
  refine ⟨hf.1, fun h hh => ?_⟩
  have hm : s'.lists h ∈ s.shards.map s.lists := hl ▸ List.mem_map_of_mem hh
  obtain ⟨k, hk, he⟩ := List.mem_map.mp hm
  have hk := hf.2 k hk
  have he : (s.heap k).streams = (s'.heap h).streams := he
  rwa [he] at hk

/-- An add that spawns a shard, though it could have been placed. -/
theorem SpawnsFor.full (hf : SpawnsFor cfg s) (hne : 1 ≤ s.shards.length)
    (hp : PlacedOrRefused cfg s (.takeUp (.addStream st))) : Full cfg s := by
  have hroom : ∀ h ∈ s.shards, ¬ HasRoom cfg s h := by
    intro h hh hr
    rcases hp ⟨h, hh, hr⟩ with ⟨k, hk, hlive, hkr⟩ | hmax | hello | ⟨n, hn, hle⟩
    · exact hf.noneFree k hk hlive hkr
    · have := hf.belowMax
      omega
    · exact hf.shared hello
    · have := hf.workers n hn
      omega
  obtain ⟨h, hh⟩ := List.exists_mem_of_length_pos hne
  have hpos : cfg.maxStreamsPerWorker ≠ 0 := fun h0 => hroom h hh (.inl h0)
  refine ⟨Nat.pos_of_ne_zero hpos, fun k hk => Nat.le_of_not_lt fun hlt => hroom k hk (.inr hlt)⟩

theorem step_placementInv (hp : PlacedOrRefused cfg s a) (hi : PlacementInv cfg s) (hs : step cfg s a = some s') :
    PlacementInv cfg s' where
  wf := step_wf hi.wf hs
  some_shard := by
    have hpos := hi.some_shard
    rcases step_shards_length_ge hs with hle | ⟨⟨h, hf⟩, -, hle⟩
    · omega
    · have := hi.fresh h hf
      omega
  fresh h hf := by
    have hpos := hi.some_shard
    rcases step_shards_length_ge hs with hle | ⟨-, hnone, -⟩
    · rcases step_fresh hs hf with hf | ⟨⟨st, -, rfl⟩, -⟩
      · have := hi.fresh h hf
        omega
      · have hlen : (s.spawnShard st).shards.length = s.shards.length + 1 := by simp [State.spawnShard]
        omega
    · rw [hf] at hnone
      cases hnone
  spawning st ho := by
    obtain ⟨hl, ho⟩ := step_spawning_loads hi.wf hs ho
    refine full_congr hl ?_
    rcases ho with ho | ⟨rfl, hf⟩
    · exact hi.spawning st ho
    · exact hf.full hi.some_shard hp

/-- The supervisor starts with at least one shard. -/
theorem shardCountFor_pos {n : Nat} (hw : ∀ w, cfg.workers = some w → 1 ≤ w) : 1 ≤ shardCountFor cfg n := by
  have hd : 1 ≤ (if cfg.maxStreamsPerWorker = 0 then 1
      else max 1 ((n + cfg.maxStreamsPerWorker - 1) / cfg.maxStreamsPerWorker)) := by
    split
    · exact Nat.le_refl _
    · exact Nat.le_max_left ..
  unfold shardCountFor
  dsimp only
  split
  next w hcw =>
    have := hw w hcw
    omega
  · exact hd

theorem start_placementInv (hl : lists ≠ []) : PlacementInv cfg (start lists) where
  wf := start_wf
  some_shard := by
    have hs : (start lists).shards.length = lists.length := List.length_range
    rw [hs]
    exact List.length_pos_of_ne_nil hl
  fresh := nofun
  spawning := nofun

/-- **A shard is spawned only when all are full**, in every run whose adds
find a shard with room that is not being restarted, where any has room. -/
theorem spawn_shards_full {as : List Action} (hl : lists ≠ [])
    (hm : Meets (step cfg) (PlacedOrRefused cfg) (start lists) as)
    (hr : run (step cfg) (start lists) as = some s) (hs : step cfg s .spawn = some s') :
    0 < cfg.maxStreamsPerWorker ∧ ∀ h ∈ s.shards, cfg.maxStreamsPerWorker ≤ (s.heap h).streams.length := by
  have hi := run_invariant (I := PlacementInv cfg) (fun _ _ _ hp hi hs => step_placementInv hp hi hs) hm
    (start_placementInv hl) hr
  cases step_view hs with
  | spawn ho => exact hi.spawning _ ho
  | worker hh => cases hh

/-- Three workers at most, with room for one stream each. -/
def onePerShard : Config := { workers := some 3, maxStreamsPerWorker := 1, maxStreams := 8, streamsFile := false }

/-- A shard with its stream, and an add: the shard is full. -/
theorem spawn_shards_full_of_add :
    ∃ s s', run (step onePerShard) (start [[cam "a"]]) [.workerAdd 0 .ok, .workerStarted 0, .readerRecv 0,
        .takeUp (.addStream (cam "b"))] = some s ∧ step onePerShard s .spawn = some s' ∧
      ∀ h ∈ s.shards, onePerShard.maxStreamsPerWorker ≤ (s.heap h).streams.length := by
  refine ⟨_, _, rfl, rfl, ?_⟩
  have hm : Meets (step onePerShard) (PlacedOrRefused onePerShard) (start [[cam "a"]]) [.workerAdd 0 .ok,
      .workerStarted 0, .readerRecv 0, .takeUp (.addStream (cam "b"))] := by decide
  exact (spawn_shards_full (by simp) hm rfl rfl).2

/-- No limit of streams a shard. -/
def noLimit : Config := { workers := none, maxStreamsPerWorker := 0, maxStreams := 8, streamsFile := false }

/-- The only shard dies, and a stream is added while it is being restarted:
a second shard is spawned for it. -/
theorem spawns_beside_restarting :
    ∃ s s', run (step noLimit) (start [[cam "a"]]) [.workerAdd 0 .ok, .workerStarted 0, .readerRecv 0,
        .workerExit 0, .watchdog 0, .takeUp (.addStream (cam "b"))] = some s ∧
      step noLimit s .spawn = some s' ∧ s.shards.length = 1 ∧ s'.shards.length = 2 ∧
      noLimit.maxStreamsPerWorker = 0 :=
  ⟨_, _, rfl, rfl, rfl, rfl, rfl⟩

end RetailVision.Supervisor
