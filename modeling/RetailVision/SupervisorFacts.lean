/-
What one step of the supervisor can do (`StepView`, `step_view`), and from
that alone: which streams its handles list after it (`step_streams`: the
same ones, except where an operation commits), which messages and replies
are under way (`step_sent`, `step_replied`), and where the operation in
progress came from.
-/
import RetailVision.Supervisor

set_option linter.all false

namespace RetailVision.Supervisor

open Lib

/-! ## The cases of a step -/

/-- The handle whose shard process takes a step. -/
def Action.shard : Action → Option Nat
  | .workerAdd h _ | .workerStarted h | .workerBeat h _ | .workerRecv h _ | .workerExit h => some h
  | _ => none

/-- Every step there is, with its guard and its result. -/
inductive StepView (cfg : Config) (s : State) : Action → State → Prop
  | takeUp (ho : s.op = .idle) : StepView cfg s (.takeUp c) (takeUp cfg s c)
  | spawn (ho : s.op = .spawning st) : StepView cfg s .spawn (s.spawnShard st)
  | spawnFails (ho : s.op = .spawning st) : StepView cfg s (.spawnFails e) (s.ack (.addStream st) (some e))
  | shardStarted (ho : s.op = .awaiting h st) (hs : (s.heap h).started = true) :
      StepView cfg s .shardStarted { s with op := .sending h true (.addStream st) }
  | startTimeout (ho : s.op = .awaiting h st) :
      StepView cfg s .startTimeout (s.fail h true (.addStream st) "add failed: shard did not start")
  | send (ho : s.op = .sending h fresh c) : StepView cfg s .send (s.sendOp h fresh c)
  | sendFails (ho : s.op = .sending h fresh c) : StepView cfg s (.sendFails e)
      ({ s with reqCounter := s.reqCounter + 1 }.fail h fresh c ("shard unreachable: " ++ e))
  | takeOk (ho : s.op = .waiting h fresh c req) (hp : (req, r) ∈ s.pending) (hr : r.ok = true) :
      StepView cfg s .takeReply { s.popReply req with op := .committing h c }
  | takeError (ho : s.op = .waiting h fresh c req) (hp : (req, r) ∈ s.pending) (hr : r.ok = false) :
      StepView cfg s .takeReply ((s.popReply req).fail h fresh c r.error)
  | replyTimeout (ho : s.op = .waiting h fresh c req) (hp : ∀ r, (req, r) ∉ s.pending) :
      StepView cfg s .replyTimeout (s.fail h fresh c "shard request timed out")
  | discard (ho : s.op = .discarding h c e) : StepView cfg s .discard (s.discardShard h c e)
  | commit (ho : s.op = .committing h c) : StepView cfg s .commit (s.commit h c)
  | persist (ho : s.op = .persisting c) : StepView cfg s .persist ((s.persistStreams cfg).ack c none)
  | persistFails (ho : s.op = .persisting c) : StepView cfg s (.persistFails e) (s.ack c (some e))
  | worker (hh : a.shard = some h) (hw : stepWorker (s.heap h).worker a = some w) :
      StepView cfg s a (s.modify h (·.withWorker fun _ => w))
  | readerRecv (ho : (s.heap h).worker.outbox = o :: outbox) :
      StepView cfg s (.readerRecv h) (s.receive h o outbox)
  | watchdog (hh : h ∈ s.shards) : StepView cfg s (.watchdog h) (s.modify h fun hd => { hd with restarting := true })
  | restartShard (hh : h ∈ s.shards) (hr : (s.heap h).restarting = true) :
      StepView cfg s (.restartShard h) (s.restartShard h)

variable {cfg : Config} {s s' : State} {a : Action} {h k : Nat} {c : Request} {req : Nat} {r : Reply}

theorem step_view (hs : step cfg s a = some s') : StepView cfg s a s' := by
  cases a <;> simp only [step, stepOp, stepSupervision, Option.map_eq_some_iff] at hs
  case workerAdd | workerStarted | workerBeat | workerRecv | workerExit =>
    obtain ⟨w, hw, rfl⟩ := hs; exact .worker rfl hw
  case takeReply =>
    split at hs <;> try contradiction
    next h fresh c req ho =>
    split at hs <;> try contradiction
    next q r hf =>
    have hp := List.mem_of_find?_eq_some hf
    have hq : q = req := by simpa using List.find?_some hf
    subst hq
    split at hs <;> cases hs
    next hr => exact .takeOk ho hp hr
    next hr => exact .takeError ho hp (by simpa using hr)
  case replyTimeout =>
    split at hs <;> try contradiction
    next h fresh c req ho =>
    split at hs <;> cases hs
    next hn =>
      refine .replyTimeout ho fun r hr => hn ?_
      simp only [List.any_eq_true]
      exact ⟨_, hr, by simp⟩
  case restartShard =>
    split at hs <;> cases hs
    next hh => exact .restartShard hh.1 hh.2
  case watchdog =>
    split at hs <;> cases hs
    next hh => exact .watchdog hh.1
  case commit =>
    split at hs <;> cases hs
    next ho => exact .commit ho
  case persistFails =>
    split at hs <;> try contradiction
    next ho => split at hs <;> cases hs; exact .persistFails ho
  case shardStarted =>
    split at hs <;> try contradiction
    next ho => split at hs <;> cases hs; exact .shardStarted ho ‹_›
  all_goals
    split at hs <;> cases hs
    first
    | exact .takeUp ‹_› | exact .spawn ‹_› | exact .spawnFails ‹_› | exact .startTimeout ‹_›
    | exact .send ‹_› | exact .sendFails ‹_› | exact .discard ‹_› | exact .persist ‹_›
    | exact .readerRecv ‹_›

/-! ## What the parts of a step leave alone -/

/-- A command taken up, or an operation failed, changes the operation and the
acks alone. -/
structure SameBut (s s' : State) : Prop where
  heap : s'.heap = s.heap
  next : s'.next = s.next
  shards : s'.shards = s.shards
  pending : s'.pending = s.pending
  reqCounter : s'.reqCounter = s.reqCounter
  persisted : s'.persisted = s.persisted

theorem takeUp_same (cfg : Config) (s : State) (c : Request) : SameBut s (takeUp cfg s c) := by
  unfold takeUp
  cases c <;> simp only <;> (repeat' split) <;> exact ⟨rfl, rfl, rfl, rfl, rfl, rfl⟩

theorem fail_same {e fresh} : SameBut s (s.fail h fresh c e) := by
  unfold State.fail
  split <;> exact ⟨rfl, rfl, rfl, rfl, rfl, rfl⟩

/-- Where an operation stands once its command is taken up. -/
theorem takeUp_op : (takeUp cfg s c).op = .idle ∨ (∃ st, (takeUp cfg s c).op = .spawning st) ∨
    ∃ h, (takeUp cfg s c).op = .sending h false c := by
  unfold takeUp
  cases c <;> simp only <;> (repeat' split) <;> simp [State.ack]

theorem fail_op {e fresh} : (s.fail h fresh c e).op = .idle ∨
    fresh = true ∧ (s.fail h fresh c e).op = .discarding h c e := by
  cases fresh <;> simp [State.fail, State.ack]

theorem modify_heap_self {f} : (s.modify h f).heap h = f (s.heap h) := by simp [State.modify]

theorem modify_heap_ne {f} (hk : k ≠ h) : (s.modify h f).heap k = s.heap k := by
  simp [State.modify, hk]

/-! ## The streams listed -/

/-- Each handle's list of streams. -/
def State.lists (s : State) : Nat → List Stream := fun h => (s.heap h).streams

theorem State.streams_eq (s : State) : s.streams = s.shards.flatMap s.lists := rfl

/-- One handle replaced: its list is, too. -/
theorem lists_update {d : Handle} (hh : s'.heap = Function.update s.heap h d) :
    s'.lists = Function.update s.lists h d.streams := by
  funext k
  unfold State.lists
  rw [hh]
  by_cases hk : k = h
  · subst hk; simp
  · simp [hk]

/-- A handle replaced by one with the same list: nothing changes. -/
theorem lists_update_of_eq {d : Handle} (hh : s'.heap = Function.update s.heap h d)
    (hd : d.streams = (s.heap h).streams) : s'.lists = s.lists := by
  rw [lists_update hh, hd]; exact Function.update_eq_self h s.lists

theorem lists_congr (hh : s'.heap = s.heap) : s'.lists = s.lists := by unfold State.lists; rw [hh]

theorem streams_congr (hl : s'.lists = s.lists) (hh : s'.shards = s.shards) : s'.streams = s.streams := by
  rw [State.streams_eq, State.streams_eq, hl, hh]

theorem SameBut.streams (hb : SameBut s s') : s'.streams = s.streams :=
  streams_congr (lists_congr hb.heap) hb.shards

/-- The shard an operation spawned for itself, until its add is committed. -/
def Op.fresh : Op → Option Nat
  | .awaiting h _ | .sending h true _ | .waiting h true _ _ | .discarding h _ _ => some h
  | _ => none

/-- References in use are distinct and made by `_spawn_shard`; a shard
spawned for an add lists nothing before it. -/
structure Wf (s : State) : Prop where
  nodup : s.shards.Nodup
  lt : ∀ h ∈ s.shards, h < s.next
  fresh : ∀ h, s.op.fresh = some h → h < s.next ∧ s.lists h = []

theorem Wf.next_notMem (hw : Wf s) : s.next ∉ s.shards := fun h => Nat.lt_irrefl _ (hw.lt _ h)

theorem receive_same {o outbox} : (s.receive h o outbox).lists = s.lists ∧
    (s.receive h o outbox).shards = s.shards ∧ (s.receive h o outbox).next = s.next ∧
    (s.receive h o outbox).op = s.op ∧ (s.receive h o outbox).reqCounter = s.reqCounter ∧
    (s.receive h o outbox).persisted = s.persisted := by
  cases o <;> exact ⟨lists_update_of_eq rfl rfl, rfl, rfl, rfl, rfl, rfl⟩

/-- The change an operation's commit makes to the streams listed. -/
structure Commits (s s' : State) (h : Nat) (c : Request) : Prop where
  op : s.op = .committing h c
  shards : s'.shards = s.shards
  lists : s'.lists = Function.update s.lists h (commitStreams (s.lists h) c)

theorem commit_heap : (s.commit h c).heap =
    Function.update s.heap h { s.heap h with streams := commitStreams (s.lists h) c } := by
  cases c <;> rfl

theorem commit_commits (ho : s.op = .committing h c) : Commits s (s.commit h c) h c :=
  ⟨ho, by cases c <;> rfl, lists_update commit_heap⟩

theorem spawnShard_streams (hw : Wf s) {st} : (s.spawnShard st).streams = s.streams := by
  have hl : (s.spawnShard st).lists = Function.update s.lists s.next [] :=
    lists_update (d := newHandle s.shards.length []) rfl
  have hs : (s.spawnShard st).shards = s.shards ++ [s.next] := rfl
  rw [State.streams_eq, hl, hs, List.flatMap_append, flatMap_update_of_notMem hw.next_notMem]
  simp [State.streams_eq]

theorem discardShard_streams (hw : Wf s) {e} (ho : s.op = .discarding h c e) :
    (s.discardShard h c e).streams = s.streams := by
  have hl : (s.discardShard h c e).lists = s.lists := lists_update_of_eq rfl rfl
  have hs : (s.discardShard h c e).shards = s.shards.erase h := rfl
  have hn : s.lists h = [] := (hw.fresh h (by rw [ho]; rfl)).2
  rw [State.streams_eq, State.streams_eq, hl, hs, flatMap_erase_of_nil hn]

theorem restartShard_lists : (s.restartShard h).lists = Function.update s.lists s.next (s.lists h) := by
  refine (lists_update rfl).trans ?_
  congr 1
  exact lists_update_of_eq rfl rfl

theorem restartShard_streams (hw : Wf s) : (s.restartShard h).streams = s.streams := by
  have hs : (s.restartShard h).shards = s.shards.map fun k => if k = h then s.next else k := rfl
  rw [State.streams_eq, State.streams_eq, restartShard_lists, hs, flatMap_replace hw.next_notMem]

/-- **Only a commit changes the streams listed**: spawning, discarding and
restarting a shard leave them as they are, in the same order. -/
theorem step_streams (hw : Wf s) (hs : step cfg s a = some s') :
    s'.streams = s.streams ∨ a = .commit ∧ ∃ h c, Commits s s' h c := by
  cases step_view hs with
  | takeUp => exact .inl (takeUp_same ..).streams
  | spawn => exact .inl (spawnShard_streams hw)
  | startTimeout | replyTimeout => exact .inl fail_same.streams
  | sendFails => exact .inl fail_same.streams
  | takeError => exact .inl fail_same.streams
  | spawnFails | shardStarted | takeOk | persistFails => exact .inl rfl
  | send => exact .inl (streams_congr (lists_update_of_eq rfl rfl) rfl)
  | discard ho => exact .inl (discardShard_streams hw ho)
  | commit ho => exact .inr ⟨rfl, _, _, commit_commits ho⟩
  | persist => left; unfold State.persistStreams; split <;> rfl
  | worker | watchdog => exact .inl (streams_congr (lists_update_of_eq rfl rfl) rfl)
  | readerRecv => exact .inl (streams_congr receive_same.1 receive_same.2.1)
  | restartShard => exact .inl (restartShard_streams hw)

/-- **`self.shards` changes in three places**: where a shard is spawned for an
add, where that shard is discarded, and where one is restarted. -/
theorem step_shards (hs : step cfg s a = some s') : s'.shards = s.shards ∨
    (∃ st, s.op = .spawning st ∧ a = .spawn ∧ s' = s.spawnShard st) ∨
    (∃ h c e, s.op = .discarding h c e ∧ a = .discard ∧ s' = s.discardShard h c e) ∨
    ∃ h ∈ s.shards, a = .restartShard h ∧ s' = s.restartShard h := by
  cases step_view hs with
  | takeUp => exact .inl (takeUp_same ..).shards
  | startTimeout | replyTimeout => exact .inl fail_same.shards
  | sendFails => exact .inl (fail_same (s := { s with reqCounter := s.reqCounter + 1 })).shards
  | @takeError _ _ _ q => exact .inl (fail_same (s := s.popReply q)).shards
  | spawn ho => exact .inr (.inl ⟨_, ho, rfl, rfl⟩)
  | discard ho => exact .inr (.inr (.inl ⟨_, _, _, ho, rfl, rfl⟩))
  | restartShard hh => exact .inr (.inr (.inr ⟨_, hh, rfl, rfl⟩))
  | commit ho => exact .inl (commit_commits ho).shards
  | persist => left; unfold State.persistStreams; split <;> rfl
  | readerRecv => exact .inl receive_same.2.1
  | spawnFails | shardStarted | send | takeOk | persistFails | worker | watchdog => exact .inl rfl

/-! ## References -/

theorem Wf.of_same (hw : Wf s) (hs : s'.shards = s.shards) (hn : s'.next = s.next) (hl : s'.lists = s.lists)
    (hf : ∀ h, s'.op.fresh = some h → s.op.fresh = some h) : Wf s' where
  nodup := hs ▸ hw.nodup
  lt := by rw [hs, hn]; exact hw.lt
  fresh h hh := by rw [hn, hl]; exact hw.fresh h (hf h hh)

theorem Wf.of_sameBut (hw : Wf s) (hb : SameBut s s') (hf : ∀ h, s'.op.fresh = some h → s.op.fresh = some h) :
    Wf s' :=
  hw.of_same hb.shards hb.next (lists_congr hb.heap) hf

/-- A failure leaves no fresh shard that was not one before. -/
theorem Wf.fail {e fresh} (hw : Wf s) (ht : fresh = true → s.op.fresh = some h) : Wf (s.fail h fresh c e) := by
  refine hw.of_sameBut fail_same fun k hk => ?_
  rcases fail_op (s := s) (h := h) (c := c) (e := e) with ho | ⟨hf, ho⟩
  · rw [ho] at hk; cases hk
  · rw [ho] at hk; cases hk; exact ht hf

theorem Wf.takeUp (hw : Wf s) (cfg : Config) (c : Request) : Wf (takeUp cfg s c) := by
  refine hw.of_sameBut (takeUp_same ..) fun k hk => ?_
  rcases takeUp_op with ho | ⟨st, ho⟩ | ⟨h, ho⟩ <;> rw [ho] at hk <;> cases hk

theorem Wf.spawnShard (hw : Wf s) (st : Stream) : Wf (s.spawnShard st) where
  nodup := List.Nodup.append hw.nodup (by simp) (by simpa using hw.next_notMem)
  lt h hh := by
    simp only [State.spawnShard, List.mem_append, List.mem_singleton] at hh ⊢
    rcases hh with hh | hh
    · have := hw.lt h hh
      omega
    · omega
  fresh h hh := by
    cases hh
    exact ⟨Nat.lt_succ_self _, by simp [State.lists, State.spawnShard, newHandle]⟩

theorem step_wf (hw : Wf s) (hs : step cfg s a = some s') : Wf s' := by
  cases step_view hs with
  | takeUp => exact hw.takeUp cfg _
  | spawn => exact hw.spawnShard _
  | spawnFails | persistFails => exact hw.of_same rfl rfl rfl nofun
  | shardStarted ho => exact hw.of_same rfl rfl rfl fun k hk => by rw [ho]; exact hk
  | startTimeout ho => exact hw.fail fun _ => by rw [ho]; rfl
  | send ho =>
    refine hw.of_same rfl rfl (lists_update_of_eq rfl rfl) fun k hk => ?_
    rw [ho]
    cases ‹Bool› <;> exact hk
  | @sendFails h fresh c e ho =>
    have hw' : Wf { s with reqCounter := s.reqCounter + 1 } := ⟨hw.nodup, hw.lt, hw.fresh⟩
    exact hw'.fail fun hf => by subst hf; exact congrArg Op.fresh ho
  | takeOk => exact hw.of_same rfl rfl rfl nofun
  | @takeError h fresh c req r ho =>
    have hw' : Wf (s.popReply req) := ⟨hw.nodup, hw.lt, hw.fresh⟩
    exact hw'.fail fun hf => by subst hf; exact congrArg Op.fresh ho
  | replyTimeout ho => exact hw.fail fun hf => by subst hf; exact congrArg Op.fresh ho
  | discard =>
    refine ⟨hw.nodup.erase _, fun h hh => hw.lt h (List.mem_of_mem_erase hh), nofun⟩
  | commit ho =>
    have hc := commit_commits ho
    refine ⟨hc.shards ▸ hw.nodup, ?_, ?_⟩
    · rw [hc.shards]
      cases ‹Request› <;> exact hw.lt
    · cases ‹Request› <;> exact nofun
  | persist =>
    unfold State.persistStreams
    split <;> exact hw.of_same rfl rfl rfl nofun
  | worker | watchdog => exact hw.of_same rfl rfl (lists_update_of_eq rfl rfl) fun _ hk => hk
  | readerRecv =>
    obtain ⟨hl, hs, hn, ho, -⟩ := receive_same
    exact hw.of_same hs hn hl fun k hk => by rwa [ho] at hk
  | @restartShard h hh =>
    refine ⟨nodup_replace hw.nodup hw.next_notMem, ?_, ?_⟩
    · intro k hk
      simp only [State.restartShard, List.mem_map] at hk ⊢
      obtain ⟨d, hd, rfl⟩ := hk
      split
      · exact Nat.lt_succ_self _
      · exact Nat.lt_succ_of_lt (hw.lt d hd)
    · intro k hk
      obtain ⟨hlt, hnil⟩ := hw.fresh k hk
      refine ⟨Nat.lt_succ_of_lt hlt, ?_⟩
      rw [restartShard_lists, Function.update_of_ne (Nat.ne_of_lt hlt), hnil]

/-! ## Messages and replies -/

/-- A message no shard process has received. -/
def State.Sent (s : State) (m : Msg) : Prop := ∃ h, m ∈ (s.heap h).worker.inbox

/-- A reply on its way to the command thread. -/
def State.Replied (s : State) (req : Nat) (r : Reply) : Prop :=
  (∃ h, .reply req r ∈ (s.heap h).worker.outbox) ∨ (req, r) ∈ s.pending

theorem stepWorker_inbox {w w' : Worker} {m : Msg} (hw : stepWorker w a = some w') (hm : m ∈ w'.inbox) :
    m ∈ w.inbox := by
  cases a <;> simp only [stepWorker] at hw <;> (repeat' split at hw) <;> cases hw <;> try exact hm
  next hi => rw [hi]; exact List.mem_cons_of_mem _ hm

/-- A shard process replies to the message at the head of its inbox. -/
theorem stepWorker_outbox {w w' : Worker} (hw : stepWorker w a = some w') (hr : .reply req r ∈ w'.outbox) :
    .reply req r ∈ w.outbox ∨ ∃ h ans m rest, a = .workerRecv h ans ∧ w.inbox = m :: rest ∧
      req = m.req ∧ r = (shardHandle w.byStreamId m.body ans).2 := by
  cases a with
  | workerRecv h ans =>
    simp only [stepWorker] at hw
    split at hw <;> cases hw
    next m rest _ hi =>
    simp only [List.mem_append, List.mem_singleton, Out.reply.injEq] at hr
    exact hr.imp_right fun hr => ⟨h, ans, m, rest, rfl, hi, hr.1, hr.2⟩
  | workerAdd | workerStarted | workerBeat | workerExit =>
    left
    simp only [stepWorker] at hw
    (repeat' split at hw) <;> cases hw <;> simpa using hr
  | _ => simp [stepWorker] at hw

theorem sent_congr (hh : s'.heap = s.heap) {m : Msg} : s'.Sent m → s.Sent m := by
  unfold State.Sent; rw [hh]; exact id

/-- With one handle changed, a message is that handle's or was there before. -/
theorem sent_update {d : Handle} {m : Msg} (hh : s'.heap = Function.update s.heap h d)
    (hm : s'.Sent m) : m ∈ d.worker.inbox ∨ s.Sent m := by
  obtain ⟨k, hk⟩ := hm
  rw [hh] at hk
  by_cases hkh : k = h
  · subst hkh; rw [Function.update_self] at hk; exact .inl hk
  · rw [Function.update_of_ne hkh] at hk; exact .inr ⟨k, hk⟩

theorem sent_update_of_sub {d : Handle} {m : Msg} (hm : s'.Sent m) (hh : s'.heap = Function.update s.heap h d)
    (hd : m ∈ d.worker.inbox → m ∈ (s.heap h).worker.inbox) : s.Sent m :=
  (sent_update hh hm).elim (fun hm => ⟨h, hd hm⟩) id

/-- **A message is sent once**, by `_send_op`, under a request id not used before. -/
theorem step_sent {m : Msg} (hs : step cfg s a = some s') (hm : s'.Sent m) :
    s.Sent m ∨ ∃ h fresh c, s.op = .sending h fresh c ∧ s'.op = .waiting h fresh c (s.reqCounter + 1) ∧
      m = ⟨s.reqCounter + 1, c⟩ := by
  cases step_view hs with
  | takeUp => exact .inl (sent_congr (takeUp_same ..).heap hm)
  | spawn => exact .inl ((sent_update rfl hm).resolve_left List.not_mem_nil)
  | startTimeout | replyTimeout => exact .inl (sent_congr fail_same.heap hm)
  | @takeError _ _ _ q => exact .inl (sent_congr (fail_same (s := s.popReply q)).heap hm)
  | sendFails => exact .inl (sent_congr (fail_same (s := { s with reqCounter := s.reqCounter + 1 })).heap hm)
  | spawnFails | shardStarted | takeOk | persistFails => exact .inl hm
  | @send h fresh c ho =>
    rcases sent_update rfl hm with hm | hm
    · simp only [Handle.withWorker, List.mem_append, List.mem_singleton] at hm
      exact hm.imp (fun hm => ⟨h, hm⟩) fun hm => ⟨h, fresh, c, ho, rfl, hm⟩
    · exact .inl hm
  | discard => exact .inl (sent_update_of_sub hm rfl id)
  | commit => exact .inl (sent_update_of_sub hm commit_heap id)
  | persist =>
    left
    unfold State.persistStreams at hm
    split at hm <;> exact hm
  | worker _ hw => exact .inl (sent_update_of_sub hm rfl (stepWorker_inbox hw))
  | @readerRecv h o outbox => cases o <;> exact .inl (sent_update_of_sub hm rfl id)
  | watchdog => exact .inl (sent_update_of_sub hm rfl id)
  | @restartShard h =>
    have hm := (sent_update (s := s.modify h (·.withWorker fun w => { w with phase := .exited })) rfl
      hm).resolve_left List.not_mem_nil
    exact .inl (sent_update_of_sub hm rfl id)

theorem replied_congr (hh : s'.heap = s.heap) (hp : s'.pending = s.pending) :
    s'.Replied req r → s.Replied req r := by
  unfold State.Replied; rw [hh, hp]; exact id

theorem replied_update {d : Handle} (hr : s'.Replied req r) (hh : s'.heap = Function.update s.heap h d)
    (hp : s'.pending = s.pending)
    (hd : .reply req r ∈ d.worker.outbox → .reply req r ∈ (s.heap h).worker.outbox) : s.Replied req r := by
  rcases hr with ⟨k, hk⟩ | hr
  · rw [hh] at hk
    by_cases hkh : k = h
    · subst hkh; rw [Function.update_self] at hk; exact .inl ⟨k, hd hk⟩
    · rw [Function.update_of_ne hkh] at hk; exact .inl ⟨k, hk⟩
  · exact .inr (hp ▸ hr)

theorem fail_replied {fresh e} (hr : (s.fail h fresh c e).Replied req r) : s.Replied req r :=
  replied_congr fail_same.heap fail_same.pending hr

theorem popReply_replied : (s.popReply req).Replied k r → s.Replied k r
  | .inl hr => .inl hr
  | .inr hr => .inr (List.mem_filter.mp hr).1

/-- **A reply comes from a shard process** that received its message. -/
theorem step_replied (hs : step cfg s a = some s') (hr : s'.Replied req r) :
    s.Replied req r ∨ ∃ h ans m rest, a = .workerRecv h ans ∧ (s.heap h).worker.inbox = m :: rest ∧
      req = m.req ∧ r = (shardHandle (s.heap h).worker.byStreamId m.body ans).2 := by
  cases step_view hs with
  | takeUp => exact .inl (replied_congr (takeUp_same ..).heap (takeUp_same ..).pending hr)
  | spawn => exact .inl (replied_update hr rfl rfl nofun)
  | startTimeout | replyTimeout => exact .inl (fail_replied hr)
  | sendFails => exact .inl (fail_replied (s := { s with reqCounter := s.reqCounter + 1 }) hr)
  | takeError => exact .inl (popReply_replied (fail_replied hr))
  | takeOk => exact .inl (popReply_replied hr)
  | spawnFails | shardStarted | persistFails => exact .inl hr
  | send => exact .inl (replied_update hr rfl rfl id)
  | discard => exact .inl (replied_update hr rfl rfl id)
  | @commit h c => exact .inl (replied_update hr commit_heap (by cases c <;> rfl) id)
  | persist =>
    left
    unfold State.persistStreams at hr
    split at hr <;> exact hr
  | worker hh hw =>
    rename_i h w
    rcases hr with ⟨k, hk⟩ | hr
    · by_cases hkh : k = h
      · subst hkh
        rw [modify_heap_self] at hk
        rcases stepWorker_outbox hw hk with hk | ⟨k', ans, m, rest, rfl, hm⟩
        · exact .inl (.inl ⟨k, hk⟩)
        · cases hh; exact .inr ⟨k, ans, m, rest, rfl, hm⟩
      · rw [modify_heap_ne hkh] at hk; exact .inl (.inl ⟨k, hk⟩)
    · exact .inl (.inr hr)
  | @readerRecv h o outbox ho =>
    left
    have hsub : .reply req r ∈ outbox → .reply req r ∈ (s.heap h).worker.outbox := by
      rw [ho]; exact List.mem_cons_of_mem _
    cases o with
    | started | heartbeat => exact replied_update hr rfl rfl hsub
    | reply q r' =>
      rcases hr with hr | hp
      · have hr : { s.receive h (.reply q r') outbox with pending := s.pending }.Replied req r := .inl hr
        exact replied_update hr rfl rfl hsub
      · simp only [State.receive, List.mem_cons, Prod.mk.injEq] at hp
        rcases hp with ⟨rfl, rfl⟩ | hp
        · exact .inl ⟨h, by rw [ho]; exact List.mem_cons_self⟩
        · exact .inr (List.mem_filter.mp hp).1
  | watchdog => exact .inl (replied_update hr rfl rfl id)
  | @restartShard h =>
    have hr : (s.modify h (·.withWorker fun w => { w with phase := .exited })).Replied req r :=
      replied_update hr rfl rfl nofun
    exact .inl (replied_update hr rfl rfl id)

theorem step_reqCounter (hs : step cfg s a = some s') : s.reqCounter ≤ s'.reqCounter := by
  cases step_view hs with
  | takeUp => exact (takeUp_same ..).reqCounter.ge
  | startTimeout | replyTimeout => exact fail_same.reqCounter.ge
  | @takeError h fresh c req r => exact (fail_same (s := s.popReply req)).reqCounter.ge
  | sendFails =>
    exact (Nat.le_succ _).trans (fail_same (s := { s with reqCounter := s.reqCounter + 1 })).reqCounter.ge
  | send => exact Nat.le_succ _
  | commit => cases ‹Request› <;> exact Nat.le_refl _
  | persist => unfold State.persistStreams; split <;> exact Nat.le_refl _
  | readerRecv => exact receive_same.2.2.2.2.1.ge
  | _ => exact Nat.le_refl _

/-! ## Where an operation came from -/

/-- An operation waits for the reply to a message it has just sent. -/
theorem step_waiting {fresh} (hs : step cfg s a = some s') (ho : s'.op = .waiting h fresh c req) :
    s.op = .waiting h fresh c req ∨
      a = .send ∧ s.op = .sending h fresh c ∧ req = s.reqCounter + 1 ∧ s'.reqCounter = s.reqCounter + 1 := by
  cases step_view hs with
  | takeUp => rcases takeUp_op with h' | ⟨st, h'⟩ | ⟨k, h'⟩ <;> rw [h'] at ho <;> cases ho
  | startTimeout | sendFails | takeError | replyTimeout =>
    rcases fail_op with h' | ⟨-, h'⟩ <;> rw [h'] at ho <;> cases ho
  | send hso => cases ho; exact .inr ⟨rfl, hso, rfl, rfl⟩
  | commit => cases ‹Request› <;> cases ho
  | spawn | spawnFails | shardStarted | takeOk | discard | persist | persistFails => cases ho
  | worker | watchdog | restartShard => exact .inl ho
  | readerRecv => rw [receive_same.2.2.2.1] at ho; exact .inl ho

/-- An operation is committed once a reply said ok to it. -/
theorem step_committing (hs : step cfg s a = some s') (ho : s'.op = .committing h c) :
    s.op = .committing h c ∨
      ∃ fresh req r, s.op = .waiting h fresh c req ∧ (req, r) ∈ s.pending ∧ r.ok = true := by
  cases step_view hs with
  | takeUp => rcases takeUp_op with h' | ⟨st, h'⟩ | ⟨k, h'⟩ <;> rw [h'] at ho <;> cases ho
  | startTimeout | sendFails | takeError | replyTimeout =>
    rcases fail_op with h' | ⟨-, h'⟩ <;> rw [h'] at ho <;> cases ho
  | takeOk hw hp hr => cases ho; exact .inr ⟨_, _, _, hw, hp, hr⟩
  | commit => cases ‹Request› <;> cases ho
  | spawn | spawnFails | shardStarted | send | discard | persist | persistFails => cases ho
  | worker | watchdog | restartShard => exact .inl ho
  | readerRecv => rw [receive_same.2.2.2.1] at ho; exact .inl ho

/-- What was written last is what is listed at some time, and there is a file
for it. -/
theorem step_persisted (hs : step cfg s a = some s') :
    s'.persisted = s.persisted ∨ cfg.streamsFile = true ∧ s'.persisted = some s.streams := by
  cases step_view hs with
  | takeUp => exact .inl (takeUp_same ..).persisted
  | startTimeout | replyTimeout => exact .inl fail_same.persisted
  | sendFails => exact .inl (fail_same (s := { s with reqCounter := s.reqCounter + 1 })).persisted
  | @takeError _ _ _ q => exact .inl (fail_same (s := s.popReply q)).persisted
  | commit => cases ‹Request› <;> exact .inl rfl
  | persist =>
    unfold State.persistStreams
    split
    · exact .inr ⟨‹_›, rfl⟩
    · exact .inl rfl
  | readerRecv => exact .inl receive_same.2.2.2.2.2
  | _ => exact .inl rfl

end RetailVision.Supervisor
