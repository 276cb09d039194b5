/-
An add that spawned a shard and failed. `_discard_shard` takes the handle it
spawned out of `self.shards` and stops its process, which leaves the shards
there were, each perhaps restarted meanwhile (`Restored`); but it looks for
the handle by identity, and where `_restart_shard` has put another in its
place it finds none: the replacement stays (`discard_misses_replacement`).
So does a shard whose add was committed before `_persist_streams` raised.
Every other failure restores the list (`failed_add_restored_iff`).
-/
import RetailVision.ShardPlacement

set_option linter.all false

namespace RetailVision.Supervisor

open Lib

variable {cfg : Config} {s s' t t' : State} {a : Action} {h k : Nat} {c : Request} {st : Stream} {r : Nat → Nat}
  {as : List Action} {lists : List (List Stream)}

/-- The handle each handle goes back to: a restart makes a new one for an
old one. -/
def origin (s : State) : Action → (Nat → Nat) → Nat → Nat
  | .restartShard h, r => Function.update r s.next (r h)
  | _, r => r

/-- The shards are those of `s`, up to restarts, and the process of every
other made since has been stopped. -/
structure Restored (s t : State) (r : Nat → Nat) : Prop where
  shards : t.shards.map r = s.shards
  stopped : ∀ k < t.next, s.next ≤ r k → (t.heap k).worker.phase = .exited

/-- The shard spawned for an add is not restarted before the add is over, and
the streams file can be written. -/
def FreshKept (s : State) : Action → Prop
  | .restartShard h => s.op.fresh ≠ some h
  | .persistFails _ => False
  | _ => True

instance (s : State) : (a : Action) → Decidable (FreshKept s a)
  | .restartShard h => inferInstanceAs (Decidable (s.op.fresh ≠ some h))
  | .persistFails _ => instDecidableFalse
  | .takeUp _ | .spawn | .spawnFails _ | .shardStarted | .startTimeout | .send | .sendFails _ | .takeReply
  | .replyTimeout | .discard | .commit | .persist | .workerAdd _ _ | .workerStarted _ | .workerBeat _ _
  | .workerRecv _ _ | .workerExit _ | .readerRecv _ | .watchdog _ => instDecidableTrue

/-! ## The end of an operation -/

/-- The shard said ok: what is left cannot fail but for the streams file. -/
def Op.saidOk : Op → Bool
  | .committing _ _ | .persisting _ => true
  | _ => false

theorem Op.fresh_of_saidOk {o : Op} (ho : o.saidOk = true) : o.fresh = none := by
  cases o <;> first | rfl | cases ho

/-- An operation ends in one ack, without an error where the shard said ok
and the streams file could be written. -/
theorem step_acks (hs : step cfg s a = some s') (hn : ∀ c, a ≠ .takeUp c) :
    (s'.acks = s.acks ∧ (s.op = .idle ↔ s'.op = .idle) ∧ (s.op.saidOk = true → s'.op.saidOk = true)) ∨
      s.op ≠ .idle ∧ s'.op = .idle ∧ ∃ c e, s'.acks = s.acks ++ [⟨c, e⟩] ∧
        (s.op.saidOk = true → e = none ∨ ∃ x, a = .persistFails x) := by
  cases step_view hs with
  | takeUp => exact absurd rfl (hn _)
  | spawn ho | shardStarted ho | startTimeout ho | send ho | takeOk ho =>
    left
    rw [ho]
    exact ⟨rfl, iff_of_false nofun nofun, nofun⟩
  | @sendFails h fresh c e ho | @takeError h fresh c req r ho | @replyTimeout h fresh c req ho =>
    rw [ho]
    cases fresh
    · exact .inr ⟨nofun, rfl, _, _, rfl, nofun⟩
    · exact .inl ⟨rfl, iff_of_false nofun nofun, nofun⟩
  | spawnFails ho | discard ho =>
    rw [ho]
    exact .inr ⟨nofun, rfl, _, _, rfl, nofun⟩
  | @commit h c ho =>
    rw [ho]
    cases c with
    | addStream | removeStream => exact .inl ⟨rfl, iff_of_false nofun nofun, fun _ => rfl⟩
    | setThreshold => exact .inr ⟨nofun, rfl, _, _, rfl, fun _ => .inl rfl⟩
  | @persist c ho =>
    rw [ho]
    refine .inr ⟨nofun, rfl, c, none, ?_, fun _ => .inl rfl⟩
    unfold State.persistStreams
    split
    · rfl
    · rfl
  | persistFails ho =>
    rw [ho]
    exact .inr ⟨nofun, rfl, _, _, rfl, fun _ => .inr ⟨_, rfl⟩⟩
  | worker | watchdog | restartShard => exact .inl ⟨rfl, Iff.rfl, id⟩
  | @readerRecv h o outbox => cases o <;> exact .inl ⟨rfl, Iff.rfl, id⟩

theorem stepWorker_exited {w w' : Worker} (hw : stepWorker w a = some w') (he : w.phase = .exited) :
    w'.phase = .exited := by
  cases a <;> simp only [stepWorker, he] at hw <;> cases hw
  rfl

theorem phase_update {d : Handle} (hh : s'.heap = Function.update s.heap h d)
    (hd : (s.heap h).worker.phase = .exited → d.worker.phase = .exited) (he : (s.heap k).worker.phase = .exited) :
    (s'.heap k).worker.phase = .exited := by
  rw [hh]
  by_cases hk : k = h
  · subst hk
    rw [Function.update_self]
    exact hd he
  · rwa [Function.update_of_ne hk]

/-- A process stopped stays so. -/
theorem step_exited (hs : step cfg s a = some s') (hk : k < s.next) (he : (s.heap k).worker.phase = .exited) :
    (s'.heap k).worker.phase = .exited := by
  have hne : k ≠ s.next := Nat.ne_of_lt hk
  cases step_view hs with
  | takeUp => rwa [(takeUp_same ..).heap]
  | startTimeout | replyTimeout => rwa [fail_same.heap]
  | sendFails => rwa [(fail_same (s := { s with reqCounter := s.reqCounter + 1 })).heap]
  | @takeError _ _ _ q => rwa [(fail_same (s := s.popReply q)).heap]
  | spawn =>
    have hh : ((s.spawnShard ‹_›).heap k) = s.heap k := Function.update_of_ne hne ..
    rwa [hh]
  | spawnFails | shardStarted | takeOk | persistFails => exact he
  | send | watchdog => exact phase_update rfl id he
  | discard => exact phase_update rfl (fun _ => rfl) he
  | commit => exact phase_update commit_heap id he
  | persist => unfold State.persistStreams; split <;> exact he
  | worker _ hw => exact phase_update rfl (stepWorker_exited hw) he
  | @readerRecv h o => cases o <;> exact phase_update rfl id he
  | @restartShard h =>
    have hh : (s.restartShard h).heap k = (s.modify h (·.withWorker fun w => { w with phase := .exited })).heap k :=
      Function.update_of_ne hne ..
    rw [hh]
    exact phase_update rfl (fun _ => rfl) he

/-! ## Until the shard says ok -/

/-- The shards are those of `s` and the fresh one, and every other made since
is stopped. -/
structure Adding (s t : State) (r : Nat → Nat) : Prop where
  op : t.op.saidOk = false
  shards : ∃ l, t.shards = l ++ t.op.fresh.toList ∧ l.map r = s.shards
  fresh : ∀ f, t.op.fresh = some f → s.next ≤ f ∧ r f = f
  stopped : ∀ k < t.next, s.next ≤ r k → t.op.fresh = some k ∨ (t.heap k).worker.phase = .exited

/-- Either the shard has said ok, or it is still to be discarded, should the
add fail. -/
structure AddInv (s t : State) (r : Nat → Nat) : Prop where
  wf : Wf t
  next_le : s.next ≤ t.next
  above : ∀ k, t.next ≤ k → r k = k
  acks : t.op ≠ .idle → t.acks = s.acks
  outcome : (t.op.saidOk = true ∨ ∃ c, t.acks = s.acks ++ [⟨c, none⟩]) ∨ Adding s t r

/-- The steps that concern neither the shards nor the fresh one of them. -/
theorem Adding.of_same (hi : Adding s t r) (hs : step cfg t a = some t') (hsh : t'.shards = t.shards)
    (hn : t'.next = t.next) (ho : t'.op.saidOk = false) (hf : t'.op.fresh = t.op.fresh) : Adding s t' r where
  op := ho
  shards := by rw [hsh, hf]; exact hi.shards
  fresh f hff := hi.fresh f (hf ▸ hff)
  stopped k hk hr := by
    rw [hn] at hk
    rw [hf]
    exact (hi.stopped k hk hr).imp_right (step_exited hs hk)

theorem Adding.spawnShard (hi : Adding s t r) (ho : t.op = .spawning st) (hr : r t.next = t.next)
    (hle : s.next ≤ t.next) : Adding s (t.spawnShard st) r where
  op := rfl
  shards := by
    obtain ⟨l, hl, hlr⟩ := hi.shards
    have hnil : t.op.fresh.toList = [] := by rw [ho]; rfl
    rw [hnil, List.append_nil] at hl
    have hsh : (t.spawnShard st).shards = t.shards ++ [t.next] := rfl
    exact ⟨l, by rw [hsh, hl]; rfl, hlr⟩
  fresh f hf := by
    cases hf
    exact ⟨hle, hr⟩
  stopped k hk hrk := by
    by_cases hkn : k = t.next
    · subst hkn
      exact .inl rfl
    · have hlt : k < t.next + 1 := hk
      have hstop := hi.stopped k (by omega) hrk
      rw [ho] at hstop
      refine .inr ?_
      have hh : (t.spawnShard st).heap k = t.heap k := Function.update_of_ne hkn ..
      rw [hh]
      exact hstop.resolve_left nofun

/-- The discard finds its handle, at the end of the list. -/
theorem Adding.discardShard {e : String} (hi : Adding s t r) (hw : Wf t) (ho : t.op = .discarding h c e) :
    Adding s (t.discardShard h c e) r where
  op := rfl
  shards := by
    obtain ⟨l, hl, hlr⟩ := hi.shards
    have hf : t.op.fresh.toList = [h] := by rw [ho]; rfl
    rw [hf] at hl
    have hnd := hw.nodup
    rw [hl] at hnd
    have hnot : h ∉ l := fun hm => (List.nodup_append.mp hnd).2.2 h hm h (by simp) rfl
    have hsh : (t.discardShard h c e).shards = t.shards.erase h := rfl
    refine ⟨l, ?_, hlr⟩
    rw [hsh, hl, List.erase_append_right _ hnot, List.erase_cons_head]
    rfl
  fresh := nofun
  stopped k hk hrk := by
    refine .inr ?_
    by_cases hkh : k = h
    · subst hkh
      have hh : (t.discardShard k c e).heap k = { t.heap k with worker := { (t.heap k).worker with phase := .exited } } :=
        Function.update_self ..
      rw [hh]
    · have hh : (t.discardShard h c e).heap k = t.heap k := Function.update_of_ne hkh ..
      rw [hh]
      have hstop := hi.stopped k hk hrk
      rw [ho] at hstop
      exact hstop.resolve_left fun he => hkh (Option.some.inj he).symm

/-- A restart of another shard. -/
theorem Adding.restartShard (hi : Adding s t r) (hws : Wf s) (hw : Wf t) (hh : h ∈ t.shards) (hne : t.op.fresh ≠ some h)
    (hs : step cfg t a = some (t.restartShard h)) :
    Adding s (t.restartShard h) (Function.update r t.next (r h)) where
  op := hi.op
  shards := by
    obtain ⟨l, hl, hlr⟩ := hi.shards
    have hsh : (t.restartShard h).shards = t.shards.map fun k => if k = h then t.next else k := rfl
    refine ⟨l.map fun k => if k = h then t.next else k, ?_, ?_⟩
    · have hf : t.op.fresh.toList.map (fun k => if k = h then t.next else k) = t.op.fresh.toList := by
        refine (List.map_congr_left fun f hf => ?_).trans (List.map_id _)
        exact if_neg fun he => hne (by rw [← he]; simpa using hf)
      rw [hsh, hl, List.map_append, hf]
      rfl
    · rw [← hlr, List.map_map]
      refine List.map_congr_left fun k hk => ?_
      have hkn : k ≠ t.next := by
        rintro rfl
        exact hw.next_notMem (by rw [hl]; exact List.mem_append_left _ hk)
      by_cases hkh : k = h
      · subst hkh
        simp
      · simp [hkh, hkn]
  fresh f hf := by
    have hf : t.op.fresh = some f := hf
    have hfn : f ≠ t.next := Nat.ne_of_lt (hw.fresh f hf).1
    rw [Function.update_of_ne hfn]
    exact hi.fresh f hf
  stopped k hk hrk := by
    by_cases hkn : k = t.next
    · -- the new one stands for a shard of `s`
      subst hkn
      rw [Function.update_self] at hrk
      obtain ⟨l, hl, hlr⟩ := hi.shards
      rw [hl] at hh
      rcases List.mem_append.mp hh with hm | hm
      · have hms : r h ∈ s.shards := hlr ▸ List.mem_map_of_mem hm
        have := hws.lt _ hms
        omega
      · exact absurd (by simpa using hm) hne
    · rw [Function.update_of_ne hkn] at hrk
      have hlt : k < t.next + 1 := hk
      exact (hi.stopped k (by omega) hrk).imp_right (step_exited hs (by omega))

theorem Adding.step (hi : Adding s t r) (hws : Wf s) (hw : Wf t) (hle : s.next ≤ t.next) (hab : r t.next = t.next)
    (hk : FreshKept t a) (ha : ∀ c, a ≠ .takeUp c) (hs : step cfg t a = some t') :
    t'.op.saidOk = true ∨ Adding s t' (origin t a r) := by
  have hop := hi.op
  cases step_view hs with
  | takeUp => exact absurd rfl (ha _)
  | spawn ho => exact .inr (hi.spawnShard ho hab hle)
  | spawnFails ho => exact .inr (hi.of_same hs rfl rfl rfl (by rw [ho]; rfl))
  | shardStarted ho => exact .inr (hi.of_same hs rfl rfl rfl (by rw [ho]; rfl))
  | startTimeout ho => exact .inr (hi.of_same hs rfl rfl rfl (by rw [ho]; rfl))
  | @send h fresh c ho =>
    refine .inr (hi.of_same hs rfl rfl rfl ?_)
    rw [ho]
    cases fresh <;> rfl
  | @sendFails h fresh c e ho | @takeError h fresh c req r' ho | @replyTimeout h fresh c req ho =>
    right
    cases fresh <;> exact hi.of_same hs rfl rfl rfl (by rw [ho]; rfl)
  | takeOk => exact .inl rfl
  | discard ho => exact .inr (hi.discardShard hw ho)
  | commit ho => rw [ho] at hop; cases hop
  | persist ho => rw [ho] at hop; cases hop
  | persistFails => exact absurd hk id
  | worker hh =>
    right
    have ho : origin t a r = r := by cases a <;> first | rfl | cases hh
    rw [ho]
    exact hi.of_same hs rfl rfl hop rfl
  | watchdog => exact .inr (hi.of_same hs rfl rfl hop rfl)
  | @readerRecv h o => cases o <;> exact .inr (hi.of_same hs rfl rfl hop rfl)
  | restartShard hh => exact .inr (hi.restartShard hws hw hh hk hs)

theorem step_addInv (hws : Wf s) (ha : ∀ c, a ≠ .takeUp c) (hk : FreshKept t a) (hi : AddInv s t r)
    (hs : step cfg t a = some t') : AddInv s t' (origin t a r) where
  wf := step_wf hi.wf hs
  next_le := hi.next_le.trans (step_next hs)
  above k hkn := by
    have hle := step_next hs
    have hr := hi.above k (hle.trans hkn)
    cases a with
    | restartShard h =>
      cases step_view hs with
      | restartShard =>
        have hne : k ≠ t.next := Nat.ne_of_gt hkn
        simp only [origin, Function.update_of_ne hne]
        exact hr
      | worker hh => cases hh
    | _ => exact hr
  acks ho := by
    rcases step_acks hs ha with ⟨he, hidle, -⟩ | ⟨-, ho', -⟩
    · rw [he]
      exact hi.acks fun h => ho (hidle.mp h)
    · exact absurd ho' ho
  outcome := by
    rcases hi.outcome with (hok | ⟨c, hc⟩) | hadd
    · left
      rcases step_acks hs ha with ⟨-, -, hok'⟩ | ⟨ho, -, c, e, he, hend⟩
      · exact .inl (hok' hok)
      · rcases hend hok with rfl | ⟨x, rfl⟩
        · exact .inr ⟨c, by rw [he, hi.acks ho]⟩
        · exact absurd hk id
    · left
      rcases step_acks hs ha with ⟨he, -⟩ | ⟨ho, -⟩
      · exact .inr ⟨c, he.trans hc⟩
      · have hacks := hi.acks ho
        rw [hc] at hacks
        exact absurd hacks (by simp)
    · rcases hadd.step hws hi.wf hi.next_le (hi.above _ (Nat.le_refl _)) hk ha hs with hok | hadd
      · exact .inl (.inl hok)
      · exact .inr hadd

theorem spawning_addInv (hw : Wf s) (ho : s.op = .spawning st) : AddInv s s id where
  wf := hw
  next_le := Nat.le_refl _
  above _ _ := rfl
  acks _ := rfl
  outcome := by
    refine .inr ⟨by rw [ho]; rfl, ⟨s.shards, by rw [ho]; simp [Op.fresh], by simp⟩, ?_, ?_⟩
    · rw [ho]
      exact nofun
    · intro k hk hr
      exact absurd hr (Nat.not_le_of_lt hk)

/-! ## The shards counted -/

/-- As many shards as there were, and the one spawned: until it is discarded. -/
structure Counted (n : Nat) (t : State) : Prop where
  op : t.op = .idle ∨ (∃ st, t.op = .spawning st) ∨ (∃ f, t.op.fresh = some f) ∨ t.op.saidOk = true
  spawning : ∀ st, t.op = .spawning st → t.shards.length = n
  spawned : ((∃ f, t.op.fresh = some f) ∨ t.op.saidOk = true) → t.shards.length = n + 1

/-- The spawned shard, or one put in its place, is beyond the reach of a
discard. -/
structure Stray (n : Nat) (t : State) : Prop where
  wf : Wf t
  spawning : ∀ st, t.op ≠ .spawning st
  fresh : ∀ f, t.op.fresh = some f → f ∉ t.shards
  shards : t.shards.length = n + 1

theorem idle_counted {n : Nat} (ho : t.op = .idle) : Counted n t where
  op := .inl ho
  spawning st hst := by
    rw [ho] at hst
    cases hst
  spawned hf := by
    rw [ho] at hf
    rcases hf with ⟨f, hf⟩ | hf <;> cases hf

theorem spawned_counted {n : Nat} (ho : (∃ f, t.op.fresh = some f) ∨ t.op.saidOk = true)
    (hl : t.shards.length = n + 1) : Counted n t where
  op := .inr (.inr ho)
  spawning st hst := by
    rw [hst] at ho
    rcases ho with ⟨f, hf⟩ | ho
    · cases hf
    · cases ho
  spawned _ := hl

/-- An operation on a shard chosen is none on a shard spawned. -/
theorem Counted.not_old {n : Nat} (hi : Counted n t) (hf : t.op.fresh = none) (ho : t.op.saidOk = false)
    (hidle : t.op ≠ .idle) (hsp : ∀ st, t.op ≠ .spawning st) : False := by
  rcases hi.op with h | ⟨st, h⟩ | ⟨f, h⟩ | h
  · exact hidle h
  · exact hsp st h
  · rw [hf] at h; cases h
  · rw [ho] at h; cases h

theorem step_counted {n : Nat} (ha : ∀ c, a ≠ .takeUp c) (hi : Counted n t) (hs : step cfg t a = some t') :
    Counted n t' := by
  cases step_view hs with
  | takeUp => exact absurd rfl (ha _)
  | spawn ho =>
    refine spawned_counted (.inl ⟨_, rfl⟩) ?_
    have hlen := hi.spawning _ ho
    simp [State.spawnShard, hlen]
  | spawnFails | discard | persistFails => exact idle_counted rfl
  | persist => exact idle_counted (by unfold State.persistStreams; split <;> rfl)
  | shardStarted ho | startTimeout ho =>
    exact spawned_counted (.inl ⟨_, rfl⟩) (hi.spawned (.inl ⟨_, by rw [ho]; rfl⟩))
  | @send h fresh c ho =>
    cases fresh with
    | true => exact spawned_counted (.inl ⟨_, rfl⟩) (hi.spawned (.inl ⟨_, by rw [ho]; rfl⟩))
    | false => exact (hi.not_old (by rw [ho]; rfl) (by rw [ho]; rfl) (by rw [ho]; simp) (by rw [ho]; simp)).elim
  | @sendFails h fresh c e ho | @takeError h fresh c req r' ho | @replyTimeout h fresh c req ho =>
    cases fresh with
    | true => exact spawned_counted (.inl ⟨_, rfl⟩) (hi.spawned (.inl ⟨_, by rw [ho]; rfl⟩))
    | false => exact idle_counted rfl
  | @takeOk h fresh c req r' ho =>
    cases fresh with
    | true => exact spawned_counted (.inr rfl) (hi.spawned (.inl ⟨_, by rw [ho]; rfl⟩))
    | false => exact (hi.not_old (by rw [ho]; rfl) (by rw [ho]; rfl) (by rw [ho]; simp) (by rw [ho]; simp)).elim
  | @commit h c ho =>
    cases c with
    | addStream | removeStream => exact spawned_counted (.inr rfl) (hi.spawned (.inr (by rw [ho]; rfl)))
    | setThreshold => exact idle_counted rfl
  | worker | watchdog => exact ⟨hi.op, hi.spawning, hi.spawned⟩
  | @readerRecv h o => cases o <;> exact ⟨hi.op, hi.spawning, hi.spawned⟩
  | @restartShard h =>
    have hlen : (t.restartShard h).shards.length = t.shards.length := List.length_map _
    refine ⟨hi.op, fun st ho => ?_, fun hf => ?_⟩
    · rw [hlen]
      exact hi.spawning st ho
    · rw [hlen]
      exact hi.spawned hf

theorem step_stray {n : Nat} (ha : ∀ c, a ≠ .takeUp c) (hi : Stray n t) (hs : step cfg t a = some t') :
    Stray n t' where
  wf := step_wf hi.wf hs
  spawning st ho := by
    rcases (step_spawning_loads hi.wf hs ho).2 with ho | ⟨rfl, -⟩
    · exact hi.spawning st ho
    · exact ha _ rfl
  fresh f hf := by
    have hft : t.op.fresh = some f := by
      rcases step_fresh hs hf with hf | ⟨⟨st, ho, -⟩, -⟩
      · exact hf
      · exact absurd ho (hi.spawning st)
    have hnot := hi.fresh f hft
    rcases step_shards hs with he | ⟨st, ho, -⟩ | ⟨h, c, e, -, -, rfl⟩ | ⟨h, hh, -, rfl⟩
    · rwa [he]
    · exact absurd ho (hi.spawning st)
    · exact fun hm => hnot (List.mem_of_mem_erase hm)
    · intro hm
      obtain ⟨k, hk, he⟩ := List.mem_map.mp hm
      have hlt := (hi.wf.fresh f hft).1
      split at he
      · omega
      · exact hnot (he ▸ hk)
  shards := by
    rcases step_shards hs with he | ⟨st, ho, -⟩ | ⟨h, c, e, ho, -, rfl⟩ | ⟨h, hh, -, rfl⟩
    · rw [he]
      exact hi.shards
    · exact absurd ho (hi.spawning st)
    · have hnot := hi.fresh h (by rw [ho]; rfl)
      have hsh : (t.discardShard h c e).shards = t.shards.erase h := rfl
      rw [hsh, List.erase_of_not_mem hnot]
      exact hi.shards
    · have hlen : (t.restartShard h).shards.length = t.shards.length := List.length_map _
      rw [hlen]
      exact hi.shards

/-- The step that leaves a stray: the fresh shard restarted, or its add
committed and not written. -/
theorem stray_of_not_freshKept {n : Nat} (hw : Wf t) (hi : Counted n t) (hk : ¬ FreshKept t a)
    (hs : step cfg t a = some t') : Stray n t' := by
  have hw' := step_wf hw hs
  cases a with
  | restartShard h =>
    have hf : t.op.fresh = some h := not_not.mp hk
    cases step_view hs with
    | worker hh => cases hh
    | restartShard =>
      have hlen : (t.restartShard h).shards.length = t.shards.length := List.length_map _
      refine ⟨hw', fun st ho => ?_, fun f hff hm => ?_, hlen.trans (hi.spawned (.inl ⟨h, hf⟩))⟩
      · have ho : t.op = .spawning st := ho
        rw [ho] at hf
        cases hf
      · have hff : t.op.fresh = some f := hff
        have hlt := (hw.fresh f hff).1
        rw [hf] at hff
        cases hff
        obtain ⟨k, hk, he⟩ := List.mem_map.mp hm
        split at he
        · omega
        next hne => exact hne he
  | persistFails e =>
    cases step_view hs with
    | worker hh => cases hh
    | persistFails ho => exact ⟨hw', nofun, nofun, hi.spawned (.inr (by rw [ho]; rfl))⟩
  | _ => exact absurd trivial hk

/-! ## A failed add -/

/-- **A failed add on a fresh shard leaves none behind**, the shards as they
were and every other stopped, if and only if the fresh shard was not
restarted before its add was over and the streams file could be written. -/
theorem failed_add_restored_iff {as₀ : List Action} {e : String} (h₀ : run (step cfg) (start lists) as₀ = some s)
    (ho : s.op = .spawning st) (hn : ∀ c, .takeUp c ∉ as)
    (hr : run (traced (step cfg) origin) (s, id) as = some (t, r))
    (hf : t.acks = s.acks ++ [⟨.addStream st, some e⟩]) :
    Restored s t r ↔ Meets (step cfg) FreshKept s as := by
  have hw : Wf s := run_invariant' (fun _ _ _ hw hs => step_wf hw hs) start_wf h₀
  have hnone : Meets (step cfg) (fun _ a => ∀ c, a ≠ .takeUp c) s as :=
    meets_of_forall fun a ha c he => hn c (he ▸ ha)
  have hrun := run_of_traced hr
  constructor
  · intro hres
    by_contra hm
    obtain ⟨bs, a, cs, u, u', rfl, hb, hk, hs, hcs⟩ := exists_of_not_meets hm hrun
    obtain ⟨hnb, hnc⟩ := hnone.append hb
    have hcount : Counted s.shards.length u := by
      refine run_invariant (I := Counted s.shards.length) (fun _ _ _ ha hi hs => step_counted ha hi hs) hnb ?_ hb
      refine ⟨.inr (.inl ⟨st, ho⟩), fun _ _ => rfl, fun h => ?_⟩
      rw [ho] at h
      rcases h with ⟨f, h⟩ | h <;> cases h
    have hwu : Wf u := run_invariant' (fun _ _ _ hw hs => step_wf hw hs) hw hb
    have hstray := stray_of_not_freshKept hwu hcount hk hs
    have hend := run_invariant (I := Stray s.shards.length) (fun _ _ _ ha hi hs => step_stray ha hi hs)
      (hnc.2 u' hs) hstray hcs
    have hlen := congrArg List.length hres.shards
    rw [List.length_map, hend.shards] at hlen
    omega
  · intro hm
    have hi := run_invariant (I := fun tr : State × (Nat → Nat) => AddInv s tr.1 tr.2)
      (fun _ _ _ hc hi hs => by
        obtain ⟨hs, hg⟩ := traced_eq_some.mp hs
        rw [hg]
        exact step_addInv hw hc.2 hc.1 hi hs)
      (meets_traced.mpr (hm.and hnone)) (spawning_addInv hw ho) hr
    have hidle : t.op = .idle := by
      by_contra hne
      have hacks := hi.acks hne
      rw [hf] at hacks
      exact absurd hacks (by simp)
    rcases hi.outcome with (hok | ⟨c, hc⟩) | hadd
    · rw [hidle] at hok
      cases hok
    · rw [hf] at hc
      simp at hc
    · obtain ⟨l, hl, hlr⟩ := hadd.shards
      have hfresh : t.op.fresh = none := by rw [hidle]; rfl
      rw [hfresh] at hl
      refine ⟨by rw [hl]; simpa using hlr, fun k hk hrk => ?_⟩
      refine (hadd.stopped k hk hrk).resolve_left fun he => ?_
      rw [hfresh] at he
      cases he

/-- The one shard is full, and a stream is added to another. -/
def addTaken : List Action := [.workerAdd 0 .ok, .workerStarted 0, .readerRecv 0, .takeUp (.addStream (cam "b"))]

/-- The new shard does not start in time; the other is restarted meanwhile. -/
def notStarted : List Action := [.spawn, .watchdog 0, .startTimeout, .restartShard 0, .discard]

theorem failed_add_restored_of_timeout :
    ∃ s t r, run (step onePerShard) (start [[cam "a"]]) addTaken = some s ∧
      run (traced (step onePerShard) origin) (s, id) notStarted = some (t, r) ∧ t.shards = [2] ∧ Restored s t r := by
  have hn : ∀ c, .takeUp c ∉ notStarted := by simp [notStarted]
  have h₀ : run (step onePerShard) (start [[cam "a"]]) addTaken = some _ := rfl
  refine ⟨_, _, _, h₀, rfl, rfl, ?_⟩
  exact (failed_add_restored_iff h₀ rfl hn rfl rfl).mpr (by decide)

/-- The new shard's process dies and is restarted before its start times out:
the discard takes the dead one away, and the one in its place runs on. -/
theorem discard_misses_replacement :
    ∃ s t r, run (step onePerShard) (start [[cam "a"]]) addTaken = some s ∧
      run (traced (step onePerShard) origin) (s, id)
        [.spawn, .workerExit 1, .watchdog 1, .restartShard 1, .startTimeout, .discard, .workerStarted 2] = some (t, r) ∧
      t.acks.map (·.error) = [some "add failed: shard did not start"] ∧
      t.shards = [0, 2] ∧ (∀ h ∈ t.shards, (t.heap h).restarting = false) ∧ (t.heap 2).worker.phase = .running ∧
      ¬ Restored s t r := by
  refine ⟨_, _, _, rfl, rfl, rfl, rfl, by decide, rfl, fun h => ?_⟩
  exact absurd (congrArg List.length h.shards) (by decide)

end RetailVision.Supervisor
