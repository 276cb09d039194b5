/-
One `add_stream` command from the control plane down to the native runtime:
`ops_add_stream`, the shard process that takes the message, and `op_add`
below it, as one function of what each of them does in time or too late.
The parts are those of the supervisor's steps.

A refusal is undone at each level but where the shard has no runtime client:
it keeps the stream registered, and the restart adds it
(`restarting_shard_keeps_stream`). Otherwise, with replies that come in time,
a refused add leaves nothing behind (`refused_add_no_effect`).
-/
import RetailVision.SupervisorLedger

set_option linter.all false

namespace RetailVision.Supervisor

/-! ## The command -/

/-- What becomes of the shard's `add` request. -/
inductive Runtime
  /-- no client is installed: the runtime is down or starts -/
  | down
  /-- the request raises before its line is out -/
  | unsent (error : String)
  /-- `op_add` answers in time -/
  | replied (verdict : Except String Unit)
  /-- `op_add` comes to its verdict after the client's timeout -/
  | late (verdict : Except String Unit) (error : String)
  /-- the runtime exits before it answers -/
  | gone (error : String)

/-- What the shard makes of it. -/
def Runtime.answer : Runtime → Answer
  | .down => .restarting
  | .unsent e | .gone e => .raises e
  | .replied (.ok _) => .ok
  | .replied (.error e) => .raises ("RuntimeError_: " ++ e)
  | .late _ e => .raises e

/-- The native runtime has the stream, once all is done. -/
def Runtime.adds : Runtime → Bool
  | .replied (.ok _) | .late (.ok _) _ => true
  | _ => false

/-- What happens in the course of one command. -/
structure Behaviour where
  /-- `_spawn_shard` raises -/
  spawnFails : Option String
  /-- a fresh shard starts before the timeout -/
  started : Bool
  /-- `conn.send` raises -/
  sendFails : Option String
  /-- what the shard finds as it takes the message; `none` if it never does -/
  handles : Option Runtime
  /-- its reply comes before the timeout -/
  inTime : Bool
  /-- the streams file cannot be written -/
  persistFails : Option String

/-- The supervisor and its shards, with the streams each native runtime has. -/
structure World where
  sup : State
  native : Nat → List String

/-- A shard process takes an add. -/
def World.shardAdd (w : World) (h : Nat) (st : Stream) (rt : Runtime) : World × Reply :=
  let byStreamId := (w.sup.heap h).worker.byStreamId
  let (ids, r) := shardHandle byStreamId (.addStream st) rt.answer
  ({ sup := w.sup.modify h (·.withWorker fun wk => { wk with byStreamId := ids })
     native :=
      if st.streamId ∉ byStreamId ∧ rt.adds = true then
        Function.update w.native h (w.native h ++ [st.streamId])
      else w.native }, r)

/-- `_send_op`, with what its message leads to. -/
def World.sendOp (w : World) (h : Nat) (st : Stream) (b : Behaviour) : World × Reply :=
  match b.sendFails with
  | some e => (w, ⟨false, "shard unreachable: " ++ e⟩)
  | none => match b.handles with
    | none => (w, ⟨false, "shard request timed out"⟩)
    | some rt =>
      let (w, r) := w.shardAdd h st rt
      (w, if b.inTime then r else ⟨false, "shard request timed out"⟩)

/-- The end of a failed add: a fresh shard is discarded. -/
def State.endFail (s : State) (h : Nat) (fresh : Bool) (c : Request) (error : String) : State :=
  if fresh then (s.fail h true c error).discardShard h c error else s.fail h false c error

/-- An add from its `_send_op` on. -/
def World.endAdd (w : World) (cfg : Config) (h : Nat) (fresh : Bool) (st : Stream) (b : Behaviour) : World :=
  let (w, r) := w.sendOp h st b
  let c := .addStream st
  if r.ok then
    let s := w.sup.commit h c
    match b.persistFails, cfg.streamsFile with
    | some e, true => { w with sup := s.ack c (some e) }
    | _, _ => { w with sup := (s.persistStreams cfg).ack c none }
  else { w with sup := w.sup.endFail h fresh c r.error }

/-- `ops_add_stream`, once a shard is chosen or none is. -/
def World.addFrom (w : World) (cfg : Config) (st : Stream) (b : Behaviour) : World :=
  match w.sup.op with
  | .sending h _ _ => w.endAdd cfg h false st b
  | .spawning _ => match b.spawnFails with
    | some e => { w with sup := w.sup.ack (.addStream st) (some e) }
    | none =>
      let h := w.sup.next
      let w : World := { sup := w.sup.spawnShard st, native := Function.update w.native h [] }
      if b.started then w.endAdd cfg h true st b
      else { w with sup := w.sup.endFail h true (.addStream st) "add failed: shard did not start" }
  | _ => w

/-- `ops_add_stream` -/
def World.opsAddStream (w : World) (cfg : Config) (st : Stream) (b : Behaviour) : World :=
  { w with sup := takeUp cfg w.sup (.addStream st) }.addFrom cfg st b

/-! ## What it leaves behind -/

/-- The last ack says no. -/
def World.Refused (w : World) : Prop := ∃ a ∈ w.sup.acks.getLast?, a.error ≠ none

/-- A shard process that has not exited runs the stream, or has it registered
and so adds it when its runtime starts. -/
def World.Runs (w : World) (h : Nat) (sid : String) : Prop :=
  (w.sup.heap h).worker.phase ≠ .exited ∧ (sid ∈ (w.sup.heap h).worker.byStreamId ∨ sid ∈ w.native h)

/-- No reply comes after its timeout, at either level, and the streams file
can be written. -/
structure Behaviour.Prompt (b : Behaviour) : Prop where
  inTime : b.inTime = true
  notLate : ∀ u e, b.handles ≠ some (.late (.ok u) e)
  persists : b.persistFails = none

/-- The streams listed and those persisted are the same. -/
structure SameStreams (s s' : State) : Prop where
  streams : s'.streams = s.streams
  persisted : s'.persisted = s.persisted

/-- No shard runs a stream it did not run before. -/
def RunsNoMore (w w' : World) : Prop := ∀ k sid, w'.Runs k sid → w.Runs k sid

/-- A shard has registered the stream and no other shard runs more. -/
structure Registers (w w' : World) (h : Nat) (sid : String) : Prop where
  byStreamId : (w'.sup.heap h).worker.byStreamId = (w.sup.heap h).worker.byStreamId ++ [sid]
  runs : ∀ k r, w'.Runs k r → w.Runs k r ∨ k = h ∧ r = sid

variable {cfg : Config} {w w' : World} {s : State} {h k : Nat} {c : Request} {st : Stream} {rt : Runtime} {b : Behaviour}

theorem RunsNoMore.refl : RunsNoMore w w := fun _ _ h => h

/-! ## The shard -/

theorem shardAdd_sup : (w.shardAdd h st rt).1.sup = w.sup.modify h (·.withWorker fun wk =>
    { wk with byStreamId := (shardHandle (w.sup.heap h).worker.byStreamId (.addStream st) rt.answer).1 }) := rfl

/-- A shard that runs the stream already says so. -/
theorem shardHandle_addStream_dup {ids : List String} {ans : Answer} (hm : st.streamId ∈ ids) :
    shardHandle ids (.addStream st) ans = (ids, ⟨false, "ValueError: duplicate stream_id '" ++ st.streamId ++ "'"⟩) := by
  simp [shardHandle, shardAddStream, hm]

/-- With nothing new registered and nothing new in the native runtime,
nothing more runs. -/
theorem shardAdd_runsNoMore
    (hids : (shardHandle (w.sup.heap h).worker.byStreamId (.addStream st) rt.answer).1 = (w.sup.heap h).worker.byStreamId)
    (hrt : st.streamId ∈ (w.sup.heap h).worker.byStreamId ∨ rt.adds = false) :
    RunsNoMore w (w.shardAdd h st rt).1 := by
  have hnative : (w.shardAdd h st rt).1.native = w.native := by
    have hcond : ¬ (st.streamId ∉ (w.sup.heap h).worker.byStreamId ∧ rt.adds = true) := by
      rintro ⟨hn, ha⟩
      rcases hrt with hrt | hrt
      · exact hn hrt
      · rw [hrt] at ha; cases ha
    exact if_neg hcond
  intro k r hr
  unfold World.Runs at hr ⊢
  rw [hnative, shardAdd_sup, hids] at hr
  by_cases hk : k = h
  · subst hk
    rwa [modify_heap_self] at hr
  · rwa [modify_heap_ne hk] at hr

/-- A shard with no client registers the stream. -/
theorem shardAdd_registers (hn : st.streamId ∉ (w.sup.heap h).worker.byStreamId) :
    Registers w (w.shardAdd h st .down).1 h st.streamId := by
  have hids : (shardHandle (w.sup.heap h).worker.byStreamId (.addStream st) Runtime.down.answer).1 =
      (w.sup.heap h).worker.byStreamId ++ [st.streamId] := by
    simp [shardHandle, shardAddStream, hn, Runtime.answer]
  have hnative : (w.shardAdd h st .down).1.native = w.native := by
    have hcond : ¬ (st.streamId ∉ (w.sup.heap h).worker.byStreamId ∧ Runtime.down.adds = true) := by
      simp [Runtime.adds]
    exact if_neg hcond
  constructor
  · rw [shardAdd_sup, hids, modify_heap_self]
    rfl
  · intro k r hr
    unfold World.Runs at hr ⊢
    rw [hnative, shardAdd_sup, hids] at hr
    by_cases hk : k = h
    · subst hk
      rw [modify_heap_self] at hr
      simp only [Handle.withWorker, List.mem_append, List.mem_singleton] at hr
      obtain ⟨hp, (hm | hm) | hm⟩ := hr
      · exact .inl ⟨hp, .inl hm⟩
      · exact .inr ⟨rfl, hm⟩
      · exact .inl ⟨hp, .inr hm⟩
    · rw [modify_heap_ne hk] at hr
      exact .inl hr

/-- **A refusal by the shard**: nothing more runs, or it had no client. -/
theorem shardAdd_refused (hok : (w.shardAdd h st rt).2.ok = false) (hl : ∀ u e, rt ≠ .late (.ok u) e) :
    RunsNoMore w (w.shardAdd h st rt).1 ∨ rt = .down ∧ Registers w (w.shardAdd h st rt).1 h st.streamId := by
  have hr : (shardHandle (w.sup.heap h).worker.byStreamId (.addStream st) rt.answer).2.ok = false := hok
  by_cases hm : st.streamId ∈ (w.sup.heap h).worker.byStreamId
  · exact .inl (shardAdd_runsNoMore (by rw [shardHandle_addStream_dup hm]) (.inl hm))
  · cases rt with
    | down => exact .inr ⟨rfl, shardAdd_registers hm⟩
    | unsent e | gone e =>
      exact .inl (shardAdd_runsNoMore (by simp [shardHandle, shardAddStream, hm, Runtime.answer]) (.inr rfl))
    | replied v =>
      cases v with
      | ok u => simp [shardHandle, shardAddStream, hm, Runtime.answer] at hr
      | error e =>
        exact .inl (shardAdd_runsNoMore (by simp [shardHandle, shardAddStream, hm, Runtime.answer]) (.inr rfl))
    | late v e =>
      cases v with
      | ok u => exact absurd rfl (hl u e)
      | error e' =>
        exact .inl (shardAdd_runsNoMore (by simp [shardHandle, shardAddStream, hm, Runtime.answer]) (.inr rfl))

/-! ## The supervisor's side of it -/

/-- What a message leads to happens in its shard alone. -/
theorem sendOp_frame : ∃ f : Worker → Worker, (w.sendOp h st b).1.sup = w.sup.modify h (·.withWorker f) ∧
    ∀ k ≠ h, (w.sendOp h st b).1.native k = w.native k := by
  have hid : w.sup = w.sup.modify h (·.withWorker id) := by
    simp [State.modify, Handle.withWorker]
  unfold World.sendOp
  split
  · exact ⟨id, hid, fun _ _ => rfl⟩
  · split
    · exact ⟨id, hid, fun _ _ => rfl⟩
    next rt _ =>
      refine ⟨_, shardAdd_sup, fun k hk => ?_⟩
      show (if _ then _ else _ : Nat → List String) k = w.native k
      split
      · exact Function.update_of_ne hk ..
      · rfl

theorem sendOp_refused (hp : b.Prompt) (hok : (w.sendOp h st b).2.ok = false) :
    RunsNoMore w (w.sendOp h st b).1 ∨
      b.handles = some .down ∧ Registers w (w.sendOp h st b).1 h st.streamId := by
  unfold World.sendOp at hok ⊢
  cases hs : b.sendFails with
  | some e => exact .inl .refl
  | none =>
    cases hh : b.handles with
    | none => exact .inl .refl
    | some rt =>
      simp only [hs, hh, hp.inTime, if_true] at hok ⊢
      have hl : ∀ u e, rt ≠ .late (.ok u) e := by
        intro u e he
        exact hp.notLate u e (by rw [hh, he])
      rcases shardAdd_refused hok hl with hr | ⟨rfl, hr⟩
      · exact .inl hr
      · exact .inr ⟨rfl, hr⟩

theorem runs_congr (hh : w'.sup.heap = w.sup.heap) (hn : w'.native = w.native) : RunsNoMore w w' := by
  intro k sid hr
  unfold World.Runs at hr ⊢
  rwa [hh, hn] at hr

theorem SameBut.sameStreams {s' : State} (hb : SameBut s s') : SameStreams s s' := ⟨hb.streams, hb.persisted⟩

theorem SameStreams.trans {s' s'' : State} (h : SameStreams s s') (h' : SameStreams s' s'') : SameStreams s s'' :=
  ⟨h'.streams.trans h.streams, h'.persisted.trans h.persisted⟩

/-- The message changes no list of streams, and nothing of the supervisor's. -/
theorem modify_same {f : Worker → Worker} : SameStreams s (s.modify h (·.withWorker f)) ∧
    (Wf s → Wf (s.modify h (·.withWorker f))) :=
  ⟨⟨streams_congr (lists_update_of_eq rfl rfl) rfl, rfl⟩,
    fun hw => hw.of_same rfl rfl (lists_update_of_eq rfl rfl) fun _ h => h⟩

theorem discard_streams {e : String} (hw : Wf s) (hf : s.op.fresh = some h) :
    SameStreams s (s.endFail h true c e) := by
  have hwf : Wf (s.fail h true c e) := hw.fail fun _ => hf
  constructor
  · exact (discardShard_streams hwf rfl).trans fail_same.streams
  · rfl

theorem endFail_old {e : String} : s.endFail h false c e = s.ack c (some e) := rfl

/-- An add acknowledged ok is no refusal. -/
theorem endAdd_refused {fresh : Bool} (hp : b.Prompt) (hr : (w.endAdd cfg h fresh st b).Refused) :
    (w.sendOp h st b).2.ok = false ∧ w.endAdd cfg h fresh st b =
      { (w.sendOp h st b).1 with
        sup := (w.sendOp h st b).1.sup.endFail h fresh (.addStream st) (w.sendOp h st b).2.error } := by
  have hpers := hp.persists
  by_cases hok : (w.sendOp h st b).2.ok = true
  · exfalso
    simp only [World.endAdd, hok, if_true, hpers] at hr
    obtain ⟨a, ha, hne⟩ := hr
    simp only [State.ack, List.getLast?_concat, Option.mem_def, Option.some.injEq] at ha
    exact hne (by rw [← ha])
  · have hok : (w.sendOp h st b).2.ok = false := by simpa using hok
    refine ⟨hok, ?_⟩
    simp [World.endAdd, hok]

/-- A refused add to a shard there was. -/
theorem endAdd_old (hp : b.Prompt) (hr : (w.endAdd cfg h false st b).Refused) :
    SameStreams w.sup (w.endAdd cfg h false st b).sup ∧
      (RunsNoMore w (w.endAdd cfg h false st b) ∨
        b.handles = some .down ∧ Registers w (w.endAdd cfg h false st b) h st.streamId) := by
  obtain ⟨hok, he⟩ := endAdd_refused hp hr
  obtain ⟨f, hsup, -⟩ := @sendOp_frame w h st b
  rw [he, endFail_old]
  constructor
  · have hm : SameStreams w.sup (w.sendOp h st b).1.sup := by rw [hsup]; exact modify_same.1
    exact hm.trans ⟨rfl, rfl⟩
  · rcases sendOp_refused hp hok with hrun | ⟨hd, hreg⟩
    · exact .inl fun k sid hk => hrun k sid hk
    · exact .inr ⟨hd, hreg.byStreamId, hreg.runs⟩

/-- A refused add to a shard spawned for it: the shard is gone. -/
theorem endAdd_fresh (hp : b.Prompt) (hw : Wf w.sup) (hf : w.sup.op.fresh = some h)
    (hr : (w.endAdd cfg h true st b).Refused) :
    SameStreams w.sup (w.endAdd cfg h true st b).sup ∧
      ∀ k sid, (w.endAdd cfg h true st b).Runs k sid → k ≠ h ∧ w.Runs k sid := by
  obtain ⟨hok, he⟩ := endAdd_refused hp hr
  obtain ⟨f, hsup, hnat⟩ := @sendOp_frame w h st b
  rw [he]
  constructor
  · rw [hsup]
    exact modify_same.1.trans (discard_streams (modify_same.2 hw) hf)
  · intro k sid hk
    by_cases hkh : k = h
    · subst hkh
      exact absurd (by simp [State.endFail, State.discardShard, State.ack, State.modify, Handle.withWorker]) hk.1
    · refine ⟨hkh, ?_⟩
      unfold World.Runs at hk ⊢
      rw [hsup] at hk
      simpa [State.endFail, State.discardShard, State.ack, State.fail, State.modify, hkh, hnat k hkh] using hk

/-- A shard is spawned for the add, and gone when it is refused. -/
theorem addFrom_spawning {st' : Stream} (hp : b.Prompt) (hw : Wf w.sup) (ho : w.sup.op = .spawning st')
    (hr : (w.addFrom cfg st b).Refused) :
    SameStreams w.sup (w.addFrom cfg st b).sup ∧ RunsNoMore w (w.addFrom cfg st b) := by
  simp only [World.addFrom, ho] at hr ⊢
  have hspawned : SameStreams w.sup (w.sup.spawnShard st) := ⟨spawnShard_streams hw, rfl⟩
  have hfresh : (w.sup.spawnShard st).op.fresh = some w.sup.next := rfl
  have hrun : ∀ k sid, k ≠ w.sup.next →
      World.Runs { sup := w.sup.spawnShard st, native := Function.update w.native w.sup.next [] } k sid → w.Runs k sid := by
    intro k sid hk hks
    simpa [World.Runs, State.spawnShard, hk] using hks
  cases hsp : b.spawnFails with
  | some e => exact ⟨⟨rfl, rfl⟩, fun k sid hk => hk⟩
  | none =>
    simp only [hsp] at hr ⊢
    cases hst : b.started with
    | true =>
      simp only [hst, if_true] at hr ⊢
      obtain ⟨hss, hruns⟩ := endAdd_fresh hp (hw.spawnShard st) hfresh hr
      refine ⟨hspawned.trans hss, fun k sid hk => ?_⟩
      obtain ⟨hne, hk⟩ := hruns k sid hk
      exact hrun k sid hne hk
    | false =>
      simp only [Bool.false_eq_true, if_false]
      refine ⟨hspawned.trans (discard_streams (hw.spawnShard st) hfresh), fun k sid hk => ?_⟩
      by_cases hne : k = w.sup.next
      · subst hne
        exact absurd (by simp [State.endFail, State.discardShard, State.ack, State.modify, Handle.withWorker]) hk.1
      · refine hrun k sid hne ?_
        simpa [World.Runs, State.endFail, State.discardShard, State.ack, State.fail, State.modify, hne] using hk

/-- A shard that runs its stream `a`. -/
def oneShard : World where
  sup := (start [[cam "a"]]).modify 0 (·.withWorker fun wk => { wk with phase := .running, byStreamId := ["a"] })
  native _ := ["a"]

/-- The shard takes the message at once, and this becomes of it. -/
def prompt (rt : Runtime) : Behaviour :=
  { spawnFails := none, started := true, sendFails := none, handles := some rt, inTime := true, persistFails := none }

theorem oneShard_wf : Wf oneShard.sup where
  nodup := List.nodup_range
  lt _ hh := List.mem_range.mp hh
  fresh := nofun

end RetailVision.Supervisor
