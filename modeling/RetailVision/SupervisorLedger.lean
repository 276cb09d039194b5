/-
What the acks of the control plane say is listed (`ledger`) against what the
handles list. The command thread commits an operation in the handle it chose
at the start; where `_restart_shard` put another in its place meanwhile, the
update is lost and the ack says otherwise (`restart_loses_add`). While every
commit finds its handle still in `self.shards`, the two agree whenever no
operation is in progress (`acked_streams_listed`).
-/
import RetailVision.SupervisorIds

set_option linter.all false

namespace RetailVision.Supervisor

open Lib

/-! ## The ledger -/

/-- What a command does to the streams that stand as added, each with its
threshold. -/
def ledgerStep (l : String → Option Json) : Request → String → Option Json
  | .addStream st => Function.update l st.streamId (some st.scoreThreshold)
  | .removeStream sid => Function.update l sid none
  | .setThreshold sid v => Function.update l sid ((l sid).map fun _ => v)

/-- The streams the supervisor was started with, and then the commands
acknowledged without an error, in order. -/
def ledger (lists : List (List Stream)) (acks : List Ack) : String → Option Json :=
  acks.foldl (fun l a => if a.error = none then ledgerStep l a.cmd else l)
    fun sid => (lists.flatten.find? (·.streamId = sid)).map (·.scoreThreshold)

/-- A list of streams holds what a ledger says. -/
def Agrees (l : String → Option Json) (streams : List Stream) : Prop :=
  ∀ sid v, l sid = some v ↔ ∃ st ∈ streams, st.streamId = sid ∧ st.scoreThreshold = v

/-- Streams of one id only: the ledger's and the list's moves agree. -/
theorem Agrees.commitStreams {l : String → Option Json} {streams : List Stream} {c : Request} (ha : Agrees l streams)
    (hc : ∀ st, c = .addStream st → st.streamId ∉ streams.map (·.streamId)) :
    Agrees (ledgerStep l c) (commitStreams streams c) := by
  intro sid v
  have hsid := ha sid
  cases c with
  | addStream st =>
    have hst := hc st rfl
    simp only [List.mem_map, not_exists, not_and] at hst
    by_cases hs : sid = st.streamId
    · subst hs
      simp only [ledgerStep, Function.update_self, Option.some.injEq, Supervisor.commitStreams, List.mem_append,
        List.mem_singleton]
      constructor
      · rintro rfl; exact ⟨st, .inr rfl, rfl, rfl⟩
      · rintro ⟨st', hm | rfl, he, rfl⟩
        · exact absurd he (hst st' hm)
        · rfl
    · simp only [ledgerStep, Function.update_of_ne hs, hsid, Supervisor.commitStreams, List.mem_append,
        List.mem_singleton]
      constructor
      · rintro ⟨st', hm, he⟩; exact ⟨st', .inl hm, he⟩
      · rintro ⟨st', hm | rfl, he⟩
        · exact ⟨st', hm, he⟩
        · exact absurd he.1.symm hs
  | removeStream r =>
    by_cases hs : sid = r
    · subst hs
      simp only [ledgerStep, Function.update_self, Supervisor.commitStreams, List.mem_filter]
      constructor
      · intro h; cases h
      · rintro ⟨st', hm, he, -⟩; simp [he] at hm
    · simp only [ledgerStep, Function.update_of_ne hs, hsid, Supervisor.commitStreams, List.mem_filter]
      constructor
      · rintro ⟨st', hm, rfl, hv⟩; exact ⟨st', ⟨hm, by simpa using hs⟩, rfl, hv⟩
      · rintro ⟨st', hm, he⟩; exact ⟨st', hm.1, he⟩
  | setThreshold r w =>
    simp only [Supervisor.commitStreams, List.mem_map]
    by_cases hs : sid = r
    · subst hs
      simp only [ledgerStep, Function.update_self, Option.map_eq_some_iff, hsid]
      constructor
      · rintro ⟨u, ⟨st, hm, he, -⟩, rfl⟩; exact ⟨_, ⟨st, hm, rfl⟩, by simp [he]⟩
      · rintro ⟨_, ⟨st, hm, rfl⟩, he, hv⟩
        by_cases h : st.streamId = sid
        · rw [if_pos h, Stream.scoreThreshold_setThreshold] at hv; exact ⟨_, ⟨st, hm, h, rfl⟩, hv⟩
        · rw [if_neg h] at he; exact absurd he h
    · simp only [ledgerStep, Function.update_of_ne hs, hsid]
      constructor
      · rintro ⟨st, hm, rfl, hv⟩; exact ⟨st, ⟨st, hm, by simp [hs]⟩, rfl, hv⟩
      · rintro ⟨_, ⟨st, hm, rfl⟩, he, hv⟩
        by_cases h : st.streamId = r
        · rw [if_pos h, Stream.streamId_setThreshold] at he; exact absurd (he.symm.trans h) hs
        · rw [if_neg h] at he hv; exact ⟨st, hm, he, hv⟩

theorem Agrees.perm {l : String → Option Json} {xs ys : List Stream} (ha : Agrees l xs) (hp : xs.Perm ys) :
    Agrees l ys := by
  intro sid v
  rw [ha]
  exact exists_congr fun st => by rw [hp.mem_iff]

/-- With distinct ids, the start agrees with its own ledger. -/
theorem agrees_start {streams : List Stream} (hn : (streams.map (·.streamId)).Nodup) :
    Agrees (fun sid => (streams.find? (·.streamId = sid)).map (·.scoreThreshold)) streams := by
  intro sid v
  simp only [Option.map_eq_some_iff]
  constructor
  · rintro ⟨st, hf, hv⟩
    exact ⟨st, List.mem_of_find?_eq_some hf, by simpa using List.find?_some hf, hv⟩
  · rintro ⟨st, hm, rfl, hv⟩
    cases hf : streams.find? (·.streamId = st.streamId) with
    | none => exact absurd (decide_eq_true rfl) (List.find?_eq_none.mp hf st hm)
    | some st' =>
      have he : st'.streamId = st.streamId := by simpa using List.find?_some hf
      rw [List.inj_on_of_nodup_map hn (List.mem_of_find?_eq_some hf) hm he]
      exact ⟨st, rfl, hv⟩

/-! ## The commit of an operation -/

variable {cfg : Config} {s s' : State} {a : Action} {h : Nat} {c : Request} {lists : List (List Stream)}

/-- The stream an operation is about, where it is one of the handle's. -/
def Request.target : Request → Option String
  | .addStream _ => none
  | .removeStream sid | .setThreshold sid _ => some sid

/-- The handle an operation has chosen. -/
def Op.holds : Op → Option (Nat × Request)
  | .sending h _ c | .waiting h _ c _ | .committing h c => some (h, c)
  | _ => none

/-- A list without the operation's stream stays as it is. -/
theorem commitStreams_of_notMem {l : List Stream} {sid : String} (ht : c.target = some sid)
    (hl : sid ∉ l.map (·.streamId)) : commitStreams l c = l := by
  have hne : ∀ st ∈ l, st.streamId ≠ sid := fun st hm he => hl (he ▸ List.mem_map_of_mem hm)
  cases c with
  | addStream => cases ht
  | removeStream r =>
    cases ht
    exact List.filter_eq_self.mpr fun st hm => by simpa using hne st hm
  | setThreshold r v =>
    cases ht
    refine (List.map_congr_left fun st hm => ?_).trans (List.map_id l)
    exact if_neg (hne st hm)

theorem commitStreams_flatMap {f : Nat → List Stream} {bins : List Nat} {sid : String} (ht : c.target = some sid) :
    commitStreams (bins.flatMap f) c = bins.flatMap fun k => commitStreams (f k) c := by
  cases c with
  | addStream => cases ht
  | removeStream => exact List.filter_flatMap ..
  | setThreshold => exact List.map_flatMap ..

/-- **A commit in a handle of `self.shards`** is the operation on all the
streams listed. -/
theorem Commits.streams_perm (hc : Commits s s' h c) (hw : Wf s) (hn : s.ids.Nodup) (hh : h ∈ s.shards)
    (ht : ∀ sid, c.target = some sid → sid ∈ (s.lists h).map (·.streamId)) :
    s'.streams.Perm (commitStreams s.streams c) := by
  rw [State.streams_eq, State.streams_eq, hc.shards, hc.lists]
  cases htc : c.target with
  | none =>
    cases c with
    | addStream st => exact (flatMap_update_append hw.nodup hh st).trans (List.perm_append_singleton st _).symm
    | removeStream | setThreshold => cases htc
  | some sid =>
    rw [commitStreams_flatMap htc]
    refine List.Perm.of_eq (List.flatMap_congr fun k hk => ?_)
    by_cases hkh : k = h
    · subst hkh; simp
    · -- The stream is the chosen handle's, and so no other's.
      rw [Function.update_of_ne hkh, commitStreams_of_notMem htc]
      rw [State.ids_eq] at hn
      exact fun hm => hkh (eq_of_mem_flatMap hn hk hh hm (ht sid htc))

/-! ## The handle an operation holds -/

theorem leastLoaded_mem {heap : Nat → Handle} : ∀ {hs : List Nat}, leastLoaded heap hs = some h → h ∈ hs
  | [], hh => by cases hh
  | k :: hs, hh => by
    unfold leastLoaded at hh
    split at hh
    · cases hh; exact List.mem_cons_self
    next k' hk =>
      split at hh <;> cases hh
      · exact List.mem_cons_of_mem _ (leastLoaded_mem hk)
      · exact List.mem_cons_self

theorem pickShardForAdd_mem (hp : pickShardForAdd cfg s = some h) : h ∈ s.shards := by
  unfold pickShardForAdd at hp
  simp only at hp
  split at hp
  · exact List.mem_of_mem_filter (List.mem_of_mem_head? hp)
  · exact List.mem_of_mem_filter (List.mem_of_mem_filter (leastLoaded_mem hp))

theorem findHandle_mem {sid : String} (hf : findHandle s sid = some h) :
    h ∈ s.shards ∧ sid ∈ (s.lists h).map (·.streamId) := by
  refine ⟨List.mem_of_find?_eq_some hf, ?_⟩
  have hany := List.find?_some hf
  simp only [List.any_eq_true, beq_iff_eq] at hany
  exact List.mem_map.mpr hany

/-- A command is taken to a handle in `self.shards`, which lists its stream. -/
theorem takeUp_holds {c' : Request} (ho : (takeUp cfg s c).op.holds = some (h, c')) :
    h ∈ s.shards ∧ ∀ sid, c'.target = some sid → sid ∈ (s.lists h).map (·.streamId) := by
  unfold takeUp at ho
  cases c with
  | addStream st =>
    simp only at ho
    (repeat' split at ho) <;> try cases ho
    next hp => exact ⟨pickShardForAdd_mem hp, nofun⟩
  | removeStream sid | setThreshold sid =>
    simp only at ho
    split at ho <;> cases ho
    next hf =>
      obtain ⟨hh, hm⟩ := findHandle_mem hf
      exact ⟨hh, fun r hr => by cases hr; exact hm⟩

theorem step_next (hs : step cfg s a = some s') : s.next ≤ s'.next := by
  cases step_view hs with
  | takeUp => exact (takeUp_same ..).next.ge
  | startTimeout | replyTimeout => exact fail_same.next.ge
  | @takeError h fresh c req r => exact (fail_same (s := s.popReply req)).next.ge
  | sendFails => exact (fail_same (s := { s with reqCounter := s.reqCounter + 1 })).next.ge
  | spawn | restartShard => exact Nat.le_succ _
  | commit => cases ‹Request› <;> exact Nat.le_refl _
  | persist => unfold State.persistStreams; split <;> exact Nat.le_refl _
  | readerRecv => exact receive_same.2.2.1.ge
  | _ => exact Nat.le_refl _

/-- A handle's own list changes where an operation commits in it. -/
theorem step_lists (hh : h < s.next) (hs : step cfg s a = some s') (hc : ∀ k c, s.op = .committing k c → a ≠ .commit) :
    s'.lists h = s.lists h := by
  have hne : h ≠ s.next := Nat.ne_of_lt hh
  cases step_view hs with
  | takeUp => rw [lists_congr (takeUp_same ..).heap]
  | spawn => rw [lists_update (s := s) (d := newHandle s.shards.length []) rfl, Function.update_of_ne hne]
  | startTimeout | replyTimeout => rw [lists_congr fail_same.heap]
  | sendFails => rw [lists_congr (fail_same (s := { s with reqCounter := s.reqCounter + 1 })).heap]; rfl
  | @takeError _ _ _ q => rw [lists_congr (fail_same (s := s.popReply q)).heap]; rfl
  | spawnFails | shardStarted | takeOk | persistFails => rfl
  | send | discard | worker | watchdog =>
    refine congrFun (g := s.lists) ?_ h
    exact lists_update_of_eq rfl rfl
  | commit ho => exact absurd rfl (hc _ _ ho)
  | persist => unfold State.persistStreams; split <;> rfl
  | readerRecv => rw [receive_same.1]
  | restartShard => rw [restartShard_lists, Function.update_of_ne hne]

/-- An operation keeps to its handle, chosen as it was taken up or spawned
for it. -/
theorem step_holds (hs : step cfg s a = some s') (ho : s'.op.holds = some (h, c)) :
    (s.op.holds = some (h, c) ∧ (∀ k c, s.op = .committing k c → a ≠ .commit)) ∨
      (h ∈ s.shards ∧ s'.lists h = s.lists h ∧ ∀ sid, c.target = some sid → sid ∈ (s.lists h).map (·.streamId)) ∨
      (∃ st, s.op = .awaiting h st ∧ c = .addStream st) := by
  cases step_view hs with
  | takeUp =>
    obtain ⟨hh, ht⟩ := takeUp_holds ho
    exact .inr (.inl ⟨hh, by rw [lists_congr (takeUp_same ..).heap], ht⟩)
  | startTimeout | sendFails | takeError | replyTimeout =>
    rcases fail_op with h' | ⟨-, h'⟩ <;> rw [h'] at ho <;> cases ho
  | shardStarted hso => cases ho; exact .inr (.inr ⟨_, hso, rfl⟩)
  | send hso => cases ho; exact .inl ⟨by rw [hso]; rfl, nofun⟩
  | takeOk hso => cases ho; exact .inl ⟨by rw [hso]; rfl, nofun⟩
  | commit => cases ‹Request› <;> cases ho
  | spawn | spawnFails | discard | persist | persistFails => cases ho
  | watchdog | restartShard => exact .inl ⟨ho, nofun⟩
  | worker hh => exact .inl ⟨ho, by rintro - - - rfl; cases hh⟩
  | readerRecv => rw [receive_same.2.2.2.1] at ho; exact .inl ⟨ho, nofun⟩

/-! ## The ledger after a step -/

/-- The ledger, with the operation that has committed and not yet acked. -/
def State.ledger (s : State) (lists : List (List Stream)) : String → Option Json :=
  match s.op with
  | .persisting c => ledgerStep (Supervisor.ledger lists s.acks) c
  | _ => Supervisor.ledger lists s.acks

theorem ledger_ack_error {acks : List Ack} {e : String} :
    ledger lists (acks ++ [⟨c, some e⟩]) = ledger lists acks := by simp [ledger]

theorem ledger_ack {acks : List Ack} : ledger lists (acks ++ [⟨c, none⟩]) = ledgerStep (ledger lists acks) c := by
  simp [ledger]

theorem takeUp_ledger (ho : s.op = .idle) : (takeUp cfg s c).ledger lists = s.ledger lists := by
  have hs : s.ledger lists = ledger lists s.acks := by simp [State.ledger, ho]
  rw [hs]
  unfold takeUp
  cases c <;> simp only <;> (repeat' split) <;> first | exact ledger_ack_error | rfl

theorem fail_ledger {fresh e} : (s.fail h fresh c e).ledger lists = ledger lists s.acks := by
  cases fresh
  · exact ledger_ack_error
  · rfl

/-- Only a commit changes what the ledger will say. -/
theorem step_ledger (hs : step cfg s a = some s') (ha : ∀ e, a ≠ .persistFails e)
    (hc : ∀ k c, s.op = .committing k c → a ≠ .commit) : s'.ledger lists = s.ledger lists := by
  cases step_view hs with
  | takeUp ho => exact takeUp_ledger ho
  | startTimeout ho | sendFails ho | takeError ho | replyTimeout ho =>
    rw [fail_ledger]; simp [State.ledger, State.popReply, ho]
  | spawn ho | shardStarted ho | send ho | takeOk ho =>
    simp [State.ledger, State.spawnShard, State.sendOp, State.modify, State.popReply, ho]
  | spawnFails ho | discard ho => simp only [State.ledger, ho]; exact ledger_ack_error
  | commit ho => exact absurd rfl (hc _ _ ho)
  | @persist c ho =>
    have hp : ((s.persistStreams cfg).ack c none).ledger lists = Supervisor.ledger lists (s.acks ++ [⟨c, none⟩]) := by
      unfold State.persistStreams
      split <;> rfl
    rw [hp, ledger_ack]
    simp [State.ledger, ho]
  | persistFails => exact absurd rfl (ha _)
  | worker | watchdog | restartShard => rfl
  | @readerRecv h o => cases o <;> rfl

theorem commit_ledger (ho : s.op = .committing h c) : (s.commit h c).ledger lists = ledgerStep (s.ledger lists) c := by
  simp only [State.ledger, ho]
  cases c with
  | addStream | removeStream => rfl
  | setThreshold => exact ledger_ack

theorem step_streams_of_op (hw : Wf s) (hs : step cfg s a = some s')
    (hc : ∀ k c, s.op = .committing k c → a ≠ .commit) : s'.streams = s.streams := by
  rcases step_streams hw hs with he | ⟨rfl, h, c, hcm⟩
  · exact he
  · exact absurd rfl (hc h c hcm.op)

/-! ## The invariant -/

/-- Adds are checked, a commit finds its handle in `self.shards`, and the
streams file can be written. -/
def UpdateKept (s : State) (a : Action) : Prop :=
  AddChecked s a ∧ match a with
    | .commit => ∀ hc ∈ s.op.holds, hc.1 ∈ s.shards
    | .persistFails _ => False
    | _ => True

instance (s : State) (a : Action) : Decidable (UpdateKept s a) := by
  unfold UpdateKept
  cases a <;> infer_instance

/-- The streams listed are those of the ledger, and the handle an operation
holds lists the operation's stream. -/
structure LedgerInv (lists : List (List Stream)) (s : State) : Prop where
  ids : IdsInv s
  agrees : Agrees (s.ledger lists) s.streams
  held_lt : ∀ h c, s.op.holds = some (h, c) → h < s.next
  held : ∀ h c sid, s.op.holds = some (h, c) → c.target = some sid → sid ∈ (s.lists h).map (·.streamId)

theorem LedgerInv.commit_agrees (hi : LedgerInv lists s) (ho : s.op = .committing h c) (hh : h ∈ s.shards) :
    Agrees ((s.commit h c).ledger lists) (s.commit h c).streams := by
  have hheld : s.op.holds = some (h, c) := by rw [ho]; rfl
  rw [commit_ledger ho]
  refine (hi.agrees.commitStreams fun st hst => ?_).perm
    ((commit_commits ho).streams_perm hi.ids.wf hi.ids.nodup hh fun sid ht => hi.held h c sid hheld ht).symm
  subst hst
  exact hi.ids.committing h st ho

theorem LedgerInv.step_agrees (hi : LedgerInv lists s) (hk : UpdateKept s a) (hs : step cfg s a = some s') :
    Agrees (s'.ledger lists) s'.streams := by
  by_cases hc : ∃ h c, s.op = .committing h c ∧ a = .commit
  · obtain ⟨h, c, ho, rfl⟩ := hc
    simp only [step, stepOp, ho, Option.some.injEq] at hs
    subst hs
    exact hi.commit_agrees ho (hk.2 (h, c) (by rw [ho]; rfl))
  · have hc : ∀ k c, s.op = .committing k c → a ≠ .commit := fun k c ho ha => hc ⟨k, c, ho, ha⟩
    have hp : ∀ e, a ≠ .persistFails e := by rintro e rfl; exact hk.2
    rw [step_ledger hs hp hc, step_streams_of_op hi.ids.wf hs hc]
    exact hi.agrees

theorem step_ledgerInv (hk : UpdateKept s a) (hi : LedgerInv lists s) (hs : step cfg s a = some s') :
    LedgerInv lists s' where
  ids := step_idsInv hk.1 hi.ids hs
  agrees := hi.step_agrees hk hs
  held_lt h c ho := by
    refine lt_of_lt_of_le ?_ (step_next hs)
    rcases step_holds hs ho with ⟨ho, -⟩ | ⟨hh, -⟩ | ⟨st, ho, -⟩
    · exact hi.held_lt h c ho
    · exact hi.ids.wf.lt h hh
    · exact (hi.ids.wf.fresh h (by rw [ho]; rfl)).1
  held h c sid ho ht := by
    rcases step_holds hs ho with ⟨ho, hc⟩ | ⟨-, hl, hm⟩ | ⟨st, -, rfl⟩
    · rw [step_lists (hi.held_lt h c ho) hs hc]; exact hi.held h c sid ho ht
    · rw [hl]; exact hm sid ht
    · cases ht

theorem start_ledgerInv (hn : (lists.flatten.map (·.streamId)).Nodup) : LedgerInv lists (start lists) where
  ids := start_idsInv hn
  agrees := by rw [start_streams]; exact agrees_start hn
  held_lt := nofun
  held := nofun

theorem mem_streams {st : Stream} : st ∈ s.streams ↔ ∃ h ∈ s.shards, st ∈ (s.heap h).streams := List.mem_flatMap

/-- **No acknowledged update is lost**: when no operation is in progress, a
stream that stands as added is in exactly one handle of `self.shards`, with
the threshold last acknowledged, and no other stream is in any. -/
theorem acked_streams_listed {as : List Action} (hn : (lists.flatten.map (·.streamId)).Nodup)
    (hm : Meets (step cfg) UpdateKept (start lists) as) (hr : run (step cfg) (start lists) as = some s)
    (ho : s.op = .idle) :
    (∀ sid v, ledger lists s.acks sid = some v →
      (∃! h, h ∈ s.shards ∧ ∃ st ∈ (s.heap h).streams, st.streamId = sid) ∧
        ∀ h ∈ s.shards, ∀ st ∈ (s.heap h).streams, st.streamId = sid → st.scoreThreshold = v) ∧
      ∀ sid, ledger lists s.acks sid = none → ∀ h ∈ s.shards, ∀ st ∈ (s.heap h).streams, st.streamId ≠ sid := by
  have hi := run_invariant (I := LedgerInv lists) (fun _ _ _ hk hi hs => step_ledgerInv hk hi hs) hm
    (start_ledgerInv hn) hr
  have hag := hi.agrees
  have hl : s.ledger lists = ledger lists s.acks := by simp [State.ledger, ho]
  rw [hl] at hag
  -- A stream listed has the ledger's threshold.
  have hthr : ∀ h ∈ s.shards, ∀ st ∈ (s.heap h).streams, ledger lists s.acks st.streamId = some st.scoreThreshold :=
    fun h hh st hst => (hag _ _).mpr ⟨st, mem_streams.mpr ⟨h, hh, hst⟩, rfl, rfl⟩
  refine ⟨fun sid v hv => ⟨?_, ?_⟩, ?_⟩
  · obtain ⟨st, hst, hid, -⟩ := (hag sid v).mp hv
    obtain ⟨h, hh, hst⟩ := mem_streams.mp hst
    refine ⟨h, ⟨hh, st, hst, hid⟩, ?_⟩
    rintro k ⟨hk, st', hst', hid'⟩
    have hnd := hi.ids.nodup
    rw [State.ids_eq] at hnd
    exact eq_of_mem_flatMap hnd hk hh (List.mem_map.mpr ⟨st', hst', hid'⟩) (List.mem_map.mpr ⟨st, hst, hid⟩)
  · rintro h hh st hst rfl
    rw [hthr h hh st hst] at hv
    exact Option.some.inj hv
  · rintro sid hnone h hh st hst rfl
    rw [hthr h hh st hst] at hnone
    cases hnone

/-- A shard takes an add and is restarted after it: the stream is in the
shard put in its place. -/
theorem acked_streams_listed_of_restart :
    ∃ s, run (step twoPerShard) (start [[cam "a"], []])
        (bothUp ++ done 1 (.addStream (cam "b")) ++ ([.watchdog 1, .restartShard 1] : List Action)) = some s ∧
      ∃! h, h ∈ s.shards ∧ ∃ st ∈ (s.heap h).streams, st.streamId = "b" := by
  have hop : (run (step twoPerShard) (start [[cam "a"], []])
      (bothUp ++ done 1 (.addStream (cam "b")) ++ ([.watchdog 1, .restartShard 1] : List Action))).map
        (fun s => (s.op, ledger [[cam "a"], []] s.acks "b")) = some (.idle, some .null) := rfl
  obtain ⟨s, hs, he⟩ := Option.map_eq_some_iff.mp hop
  obtain ⟨ho, hl⟩ := Prod.mk.inj he
  exact ⟨s, hs, ((acked_streams_listed (by decide) (by decide) hs ho).1 "b" .null hl).1⟩

/-- The restart between the reply and the commit: the add is acknowledged,
and the stream is in no handle. -/
theorem restart_loses_add :
    ∃ s, run (step twoPerShard) (start [[cam "a"], []])
        (bothUp ++ ([.takeUp (.addStream (cam "b")), .send, .workerRecv 1 .ok, .readerRecv 1, .takeReply,
          .watchdog 1, .restartShard 1, .commit, .persist] : List Action)) = some s ∧
      s.op = .idle ∧ ledger [[cam "a"], []] s.acks "b" = some .null ∧
      ∀ h ∈ s.shards, ∀ st ∈ (s.heap h).streams, st.streamId ≠ "b" := by
  refine ⟨_, rfl, rfl, rfl, ?_⟩
  decide

end RetailVision.Supervisor
