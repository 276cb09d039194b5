/-
Stream ids over all handles. The supervisor itself never compares an added
stream's id with those it lists: the only check is the chosen shard's, of its
own map. So ids stay distinct as long as each shard that takes an add either
runs that id already, and says so, or nobody lists it (`AddChecked`), and
not otherwise: `ids_not_distinct` is a stream added a second time, to
another shard.
-/
import RetailVision.SupervisorFacts

set_option linter.all false

namespace RetailVision.Supervisor

open Lib

variable {cfg : Config} {s s' : State} {a : Action} {h : Nat} {c : Request} {req : Nat} {r : Reply}

/-- Only a shard that does not run the stream says ok to an add. -/
theorem shardHandle_addStream_ok {ids : List String} {st : Stream} {ans : Answer}
    (hr : (shardHandle ids (.addStream st) ans).2.ok = true) : ans = .ok ∧ st.streamId ∉ ids := by
  by_cases hm : st.streamId ∈ ids
  · simp [shardHandle, shardAddStream, hm] at hr
  · cases ans <;> simp [shardHandle, shardAddStream, hm] at hr ⊢

/-! ## What a commit does to the ids -/

theorem commitStreams_ids {l : List Stream} (c : Request) :
    ((commitStreams l c).map (·.streamId)).Sublist (l.map (·.streamId)) ∨
      ∃ st, c = .addStream st ∧ commitStreams l c = l ++ [st] := by
  cases c with
  | addStream st => exact .inr ⟨st, rfl, rfl⟩
  | removeStream sid => exact .inl (List.filter_sublist.map _)
  | setThreshold sid v =>
    left
    unfold commitStreams
    rw [List.map_map]
    have he : l.map ((·.streamId) ∘ fun st => if st.streamId = sid then st.setThreshold v else st) =
        l.map (·.streamId) := List.map_congr_left fun st _ => by simp only [Function.comp]; split <;> simp
    rw [he]

theorem State.ids_eq (s : State) : s.ids = s.shards.flatMap fun h => (s.lists h).map (·.streamId) := by
  unfold State.ids
  rw [State.streams_eq, List.map_flatMap]

theorem Commits.ids_eq (hc : Commits s s' h c) :
    s'.ids = s.shards.flatMap
      (Function.update (fun h => (s.lists h).map (·.streamId)) h ((commitStreams (s.lists h) c).map (·.streamId))) := by
  rw [State.ids_eq, hc.shards, hc.lists]
  refine List.flatMap_congr fun k _ => ?_
  by_cases hk : k = h
  · subst hk; simp
  · simp [hk]

/-- An add of an id nobody lists keeps the ids distinct; no other commit
adds one. -/
theorem Commits.ids_nodup (hw : Wf s) (hn : s.ids.Nodup) (hc : Commits s s' h c)
    (ha : ∀ st, c = .addStream st → st.streamId ∉ s.ids) : s'.ids.Nodup := by
  rw [hc.ids_eq]
  rcases commitStreams_ids (l := s.lists h) c with hsub | ⟨st, rfl, hl⟩
  · refine List.Nodup.sublist (flatMap_update_sublist hsub) ?_
    rwa [← State.ids_eq]
  · rw [hl, List.map_append]
    by_cases hh : h ∈ s.shards
    · refine (flatMap_update_append hw.nodup hh st.streamId).nodup_iff.mpr ?_
      rw [← State.ids_eq]
      exact List.nodup_cons.mpr ⟨ha st rfl, hn⟩
    · rwa [flatMap_update_of_notMem hh, ← State.ids_eq]

/-! ## The invariant -/

/-- A shard the command thread waits for receives its add: it runs the
stream already, or no handle lists the id, or the native runtime refuses. -/
def AddChecked (s : State) : Action → Prop
  | .workerRecv k .ok => match s.op with
    | .waiting _ _ (.addStream st) req => (∃ m ∈ (s.heap k).worker.inbox.head?, m.req = req) →
        st.streamId ∈ (s.heap k).worker.byStreamId ∨ st.streamId ∉ s.ids
    | _ => True
  | _ => True

instance (s : State) (a : Action) : Decidable (AddChecked s a) := by
  unfold AddChecked
  split
  · split <;> infer_instance
  · infer_instance

/-- Ids are distinct, and an add some shard said ok to has a new id. A
request id is used once, so the reply the command thread takes is to the
message it sent. -/
structure IdsInv (s : State) : Prop where
  wf : Wf s
  nodup : s.ids.Nodup
  persisted : ∀ l, s.persisted = some l → (l.map (·.streamId)).Nodup
  sent_le : ∀ m, s.Sent m → m.req ≤ s.reqCounter
  replied_le : ∀ req r, s.Replied req r → req ≤ s.reqCounter
  waiting_le : ∀ h fresh c req, s.op = .waiting h fresh c req → req ≤ s.reqCounter
  sent : ∀ h fresh c req m, s.op = .waiting h fresh c req → s.Sent m → m.req = req → m.body = c
  replied : ∀ h fresh st req r, s.op = .waiting h fresh (.addStream st) req → s.Replied req r → r.ok = true →
    st.streamId ∉ s.ids
  committing : ∀ h st, s.op = .committing h (.addStream st) → st.streamId ∉ s.ids

theorem ids_congr (hs : s'.streams = s.streams) : s'.ids = s.ids := by unfold State.ids; rw [hs]

/-- While the command thread waits, or has yet to commit, nothing is added. -/
theorem step_ids_of_op (hw : Wf s) (hs : step cfg s a = some s') (ho : ∀ h c, s.op = .committing h c → s'.op = s.op) :
    s'.ids = s.ids := by
  rcases step_streams hw hs with he | ⟨rfl, h, c, hc⟩
  · exact ids_congr he
  · have hso := hc.op
    have hso' := ho h c hso
    simp only [step, stepOp, hso, Option.some.injEq] at hs
    subst hs
    rw [hso] at hso'
    cases c <;> cases hso'

theorem IdsInv.step_nodup (hi : IdsInv s) (hs : step cfg s a = some s') : s'.ids.Nodup := by
  rcases step_streams hi.wf hs with he | ⟨-, h, c, hc⟩
  · rw [ids_congr he]; exact hi.nodup
  · refine hc.ids_nodup hi.wf hi.nodup fun st hst => ?_
    subst hst
    exact hi.committing h st hc.op

theorem IdsInv.step_sent_le (hi : IdsInv s) (hs : step cfg s a = some s') {m : Msg} (hm : s'.Sent m) :
    m.req ≤ s'.reqCounter := by
  rcases step_sent hs hm with hm | ⟨h, fresh, c, -, ho', rfl⟩
  · exact (hi.sent_le m hm).trans (step_reqCounter hs)
  · rcases step_waiting hs ho' with ho | ⟨-, -, -, hr⟩
    · exact absurd (hi.waiting_le _ _ _ _ ho) (by simp)
    · exact hr.ge

theorem IdsInv.step_replied_le (hi : IdsInv s) (hs : step cfg s a = some s') (hr : s'.Replied req r) :
    req ≤ s'.reqCounter := by
  refine le_trans ?_ (step_reqCounter hs)
  rcases step_replied hs hr with hr | ⟨k, ans, m, rest, -, hm, rfl, -⟩
  · exact hi.replied_le _ _ hr
  · exact hi.sent_le m ⟨k, by rw [hm]; exact List.mem_cons_self⟩

theorem IdsInv.step_sent (hi : IdsInv s) (hs : step cfg s a = some s') {fresh} {m : Msg}
    (ho : s'.op = .waiting h fresh c req) (hm : s'.Sent m) (hq : m.req = req) : m.body = c := by
  rcases step_waiting hs ho with ho' | ⟨-, hso, hreq, -⟩
  · rcases Supervisor.step_sent hs hm with hm | ⟨_, _, _, hso, -, -⟩
    · exact hi.sent _ _ _ _ m ho' hm hq
    · rw [ho'] at hso; cases hso
  · rcases Supervisor.step_sent hs hm with hm | ⟨_, _, _, hso', -, rfl⟩
    · have := hi.sent_le m hm
      omega
    · rw [hso] at hso'; cases hso'; rfl

theorem IdsInv.step_replied (hi : IdsInv s) (hc : AddChecked s a) (hs : step cfg s a = some s') {fresh} {st : Stream}
    (ho : s'.op = .waiting h fresh (.addStream st) req) (hr : s'.Replied req r) (hok : r.ok = true) :
    st.streamId ∉ s'.ids := by
  have hids : s'.ids = s.ids := step_ids_of_op hi.wf hs fun _ _ hso => by
    rcases step_waiting hs ho with ho' | ⟨-, hso', -, -⟩
    · rw [ho'] at hso; cases hso
    · rw [hso'] at hso; cases hso
  rw [hids]
  rcases step_waiting hs ho with ho' | ⟨rfl, hso, hreq, -⟩
  · rcases Supervisor.step_replied hs hr with hr | ⟨k, ans, m, rest, rfl, hm, rfl, rfl⟩
    · exact hi.replied _ _ _ _ r ho' hr hok
    · -- The shard answers now: to the message sent, so its own map does not hold the id.
      have hb : m.body = .addStream st :=
        hi.sent _ _ _ _ m ho' ⟨k, by rw [hm]; exact List.mem_cons_self⟩ rfl
      rw [hb] at hok
      obtain ⟨rfl, hnot⟩ := shardHandle_addStream_ok hok
      simp only [AddChecked, ho', hm] at hc
      exact (hc ⟨m, rfl, rfl⟩).resolve_left hnot
  · rcases Supervisor.step_replied hs hr with hr | ⟨k, ans, m, rest, ha, -⟩
    · have := hi.replied_le _ _ hr
      omega
    · cases ha

theorem IdsInv.step_committing (hi : IdsInv s) (hs : step cfg s a = some s') {st : Stream}
    (ho : s'.op = .committing h (.addStream st)) : st.streamId ∉ s'.ids := by
  have hids : s'.ids = s.ids := step_ids_of_op hi.wf hs fun k c hso => by
    rcases Supervisor.step_committing hs ho with ho' | ⟨_, _, _, hso', -⟩
    · rw [ho, ho']
    · rw [hso'] at hso; cases hso
  rw [hids]
  rcases Supervisor.step_committing hs ho with ho' | ⟨fresh, q, r, hso, hp, hok⟩
  · exact hi.committing h st ho'
  · exact hi.replied _ _ _ _ r hso (.inr hp) hok

theorem step_idsInv (hc : AddChecked s a) (hi : IdsInv s) (hs : step cfg s a = some s') : IdsInv s' where
  wf := step_wf hi.wf hs
  nodup := hi.step_nodup hs
  persisted l hl := by
    rcases step_persisted hs with hp | ⟨-, hp⟩ <;> rw [hp] at hl
    · exact hi.persisted l hl
    · cases hl; exact hi.nodup
  sent_le _ hm := hi.step_sent_le hs hm
  replied_le _ _ hr := hi.step_replied_le hs hr
  waiting_le h fresh c req ho := by
    rcases step_waiting hs ho with ho' | ⟨-, -, rfl, hr⟩
    · exact (hi.waiting_le _ _ _ _ ho').trans (step_reqCounter hs)
    · exact hr.ge
  sent _ _ _ _ _ ho hm hq := hi.step_sent hs ho hm hq
  replied _ _ _ _ _ ho hr hok := hi.step_replied hc hs ho hr hok
  committing _ _ ho := hi.step_committing hs ho

/-! ## From the start -/

variable {lists : List (List Stream)}

theorem start_streams : (start lists).streams = lists.flatten := by
  have hl : (start lists).lists = fun h => lists.getD h [] := rfl
  have hs : (start lists).shards = List.range lists.length := rfl
  rw [State.streams_eq, hl, hs, List.flatMap_def]
  congr 1
  refine List.ext_getElem (by simp) fun i h₁ h₂ => ?_
  simp only [List.length_map, List.length_range] at h₁
  simp [h₁]

theorem start_wf : Wf (start lists) where
  nodup := List.nodup_range
  lt _ hh := List.mem_range.mp hh
  fresh := nofun

theorem start_idsInv (hn : (lists.flatten.map (·.streamId)).Nodup) : IdsInv (start lists) where
  wf := start_wf
  nodup := by unfold State.ids; rwa [start_streams]
  persisted := nofun
  sent_le := fun m ⟨h, hm⟩ => absurd hm List.not_mem_nil
  replied_le := fun req r hr => by
    rcases hr with ⟨h, hm⟩ | hm <;> exact absurd hm List.not_mem_nil
  waiting_le := nofun
  sent := nofun
  replied := nofun
  committing := nofun

/-- **Stream ids stay distinct** over all handles, and in what is persisted,
in every run from shards with distinct ids in which each add is checked. -/
theorem ids_nodup_of_addChecked {as : List Action} (hn : (lists.flatten.map (·.streamId)).Nodup)
    (hm : Meets (step cfg) AddChecked (start lists) as) (hr : run (step cfg) (start lists) as = some s) :
    s.ids.Nodup ∧ ∀ l, s.persisted = some l → (l.map (·.streamId)).Nodup := by
  have hi := run_invariant (I := IdsInv) (fun _ _ _ hc hi hs => step_idsInv hc hi hs) hm (start_idsInv hn) hr
  exact ⟨hi.nodup, hi.persisted⟩

/-! ## Two shards -/

/-- A stream with nothing set beyond its id and its url. -/
def cam (sid : String) : Stream :=
  ⟨[("stream_id", .str sid), ("url", .str "rtsp://cam"), ("name", .str ""), ("transport", .str "tcp"),
    ("score_threshold", .null), ("options", .obj [])]⟩

/-- Two shards at most, each for two streams. -/
def twoPerShard : Config := { workers := some 2, maxStreamsPerWorker := 2, maxStreams := 8, streamsFile := true }

/-- The first shard comes up with its stream `a`, the second with none. -/
def bothUp : List Action := [.workerAdd 0 .ok, .workerStarted 0, .workerStarted 1, .readerRecv 0, .readerRecv 1]

/-- A command the shard `h` does, and says so. -/
def done (h : Nat) (c : Request) : List Action :=
  [.takeUp c, .send, .workerRecv h .ok, .readerRecv h, .takeReply, .commit, .persist]

theorem ids_nodup_of_two_shards :
    ∃ s, run (step twoPerShard) (start [[cam "a"], []]) (bothUp ++ done 1 (.addStream (cam "b"))) = some s ∧
      s.ids = ["a", "b"] ∧ s.ids.Nodup := by
  have hids : (run (step twoPerShard) (start [[cam "a"], []])
    (bothUp ++ done 1 (.addStream (cam "b")))).map State.ids = some ["a", "b"] := by decide
  obtain ⟨s, hs, he⟩ := Option.map_eq_some_iff.mp hids
  exact ⟨s, hs, he, (ids_nodup_of_addChecked (by decide) (by decide) hs).1⟩

/-- The stream of the first shard is added again: the second has fewer
streams, and none of that id. Both are written to the streams file. -/
theorem ids_not_distinct :
    ∃ s, run (step twoPerShard) (start [[cam "a"], []]) (bothUp ++ done 1 (.addStream (cam "a"))) = some s ∧
      ¬ s.ids.Nodup ∧ s.persisted.map (·.map (·.streamId)) = some ["a", "a"] := by
  refine ⟨_, rfl, ?_, ?_⟩ <;> decide

end RetailVision.Supervisor
