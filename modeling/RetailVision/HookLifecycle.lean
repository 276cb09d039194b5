/-
The lifecycle of the registrations of a shard (`Lifecycle`): the calls of a
registration are in order, and one the control thread has caused is made or
waits for the hook thread. A shard keeps to it where no stream is registered
while the runtime is down, as the replay queues no `on_stream_added`, and where
nothing of a stream reaches the hook thread while its add is under way
(`Announced`, `lifecycle_of_announced`).
-/
import RetailVision.HookStages

set_option linter.all false

namespace RetailVision.HookThread

open ShardStreams Lib

/-- The call an item queued for a stream is for; a state is called only where
it has changed. -/
def mark (i : Nat) : Item → Option Call
  | .added idx => if idx = i then some .added else none
  | .event idx => if idx = i then some .event else none
  | .tensors idx => if idx = i then some .tensors else none
  | .removed idx ctx => if idx = i ∧ ctx.isSome then some .removed else none
  | .state _ _ _ => none

def Place.now (i : Nat) : Place → List Call
  | .calling idx c => if idx = i then [c] else []
  | _ => []

/-- The calls made for a registration. -/
def State.callsOf (s : State) (i : Nat) : List Call := s.calls.filterMap fun c => if c.1 = i then some c.2 else none

/-- The calls for a registration that wait for the hook thread, apart from
those of states and frames. -/
def State.waiting (s : State) (i : Nat) : List Call :=
  s.batch.place.now i ++ s.batch.items.filterMap (mark i) ++ s.fifo.filterMap (mark i)

/-- **The lifecycle of a registration**: its calls are in order, and that of a
stream that has been added, or removed, is made or waits for the hook thread. -/
structure Lifecycle (s : State) (i : Nat) : Prop where
  ordered : (run Phase.next .fresh (s.callsOf i)).isSome
  added : ∀ ok, Reply.added i ok ∈ s.replies → .added ∈ s.callsOf i ∨ .added ∈ s.waiting i
  removed : Reply.removed i ∈ s.replies → .removed ∈ s.callsOf i ∨ .removed ∈ s.waiting i

def Control.adds (i : Nat) : Control → Bool
  | .adding idx _ => idx = i
  | _ => false

/-- The stream is not registered while the runtime is down, and nothing of it
reaches the hook thread while its add is under way. -/
def Announced (h : Hooks) (s : State) : Action → Prop
  | .addStream _ => s.client = true
  | .queueRecord (.event i) | .queueRecord (.tensors i) => s.control.adds i = false
  | .takeBatch => h.wantsFrames = true → ∀ i ∈ s.frameSlots, s.control.adds i = false
  | _ => True

def Reply.adds (i : Nat) : Reply → Bool
  | .added idx _ => idx = i
  | .removed _ => false

def Place.forgets (i : Nat) : Place → Bool
  | .forgetting idx => idx = i
  | _ => false

/-- What a state has of a registration. -/
def view (h : Hooks) (s : State) (i : Nat) : View where
  given := i.blt s.shard.nextIndex
  adding := s.control.adds i
  present := (s.shard.context i).isSome
  registered := s.replies.any (Reply.adds i)
  removed := Reply.removed i ∈ s.replies
  framed := h.wantsFrames && decide (i ∈ s.batch.frames)
  forgetting := s.batch.place.forgets i
  calls := s.callsOf i
  now := s.batch.place.now i
  items := s.batch.items.filterMap (mark i)
  fifo := s.fifo.filterMap (mark i)

/-- The stream the control thread is at is registered under its id, until it
is unlisted. -/
def State.ControlOk (s : State) : Prop :=
  match s.control with
  | .adding i streamId | .removing i streamId _ => s.shard.index streamId = some i
  | .unlisting i streamId ctx => s.shard.index streamId = some i ∧ ctx.isSome
  | .queueing i ctx => (∀ streamId, s.shard.index streamId ≠ some i) ∧ (s.shard.context i).isSome ∧
      Reply.removed i ∉ s.replies ∧ ctx.isSome
  | .idle | .rollingBack _ => True

/-- What holds in every state of a run. -/
structure Inv (h : Hooks) (s : State) : Prop where
  fresh : s.shard.Fresh
  /-- a `stream_id` leads to a registration that has a context and is not removed -/
  linked : ∀ streamId i, s.shard.index streamId = some i →
    (∃ ctx, s.shard.context i = some ctx ∧ ctx.spec.streamId = streamId) ∧ Reply.removed i ∉ s.replies
  control : s.ControlOk
  reading : ∀ r ∈ s.reading, r.idx < s.shard.nextIndex
  slots : ∀ i ∈ s.frameSlots, i < s.shard.nextIndex
  stage : ∀ i, Stage (view h s i)

instance (h : Hooks) (s : State) : (a : Action) → Decidable (Announced h s a)
  | .addStream _ => inferInstanceAs (Decidable (s.client = true))
  | .queueRecord (.event i) | .queueRecord (.tensors i) => inferInstanceAs (Decidable (s.control.adds i = false))
  | .takeBatch => inferInstanceAs (Decidable (h.wantsFrames = true → ∀ i ∈ s.frameSlots, s.control.adds i = false))
  | .queueRecord (.frame _) | .addReply _ | .rollBack | .removeStream _ | .removeReply _ | .unlist | .queueRemoved
  | .startRuntime | .hello _ | .replay | .replayNext _ | .onRecord _ | .onState _ _ _ | .onExit | .runNext | .call
  | .forget => inferInstanceAs (Decidable True)

variable {h : Hooks} {s s' t : State} {i j idx : Nat} {spec : StreamSpec} {streamId : String} {ok : Bool}

section

variable {ctx : Option StreamContext} {asked : Bool} {c : Call} {state error : String}

@[simp] theorem adds_idle : Control.idle.adds i = false := rfl
@[simp] theorem adds_adding : (Control.adding idx streamId).adds i = decide (idx = i) := rfl
@[simp] theorem adds_rollingBack : (Control.rollingBack idx).adds i = false := rfl
@[simp] theorem adds_removing : (Control.removing idx streamId asked).adds i = false := rfl
@[simp] theorem adds_unlisting : (Control.unlisting idx streamId ctx).adds i = false := rfl
@[simp] theorem adds_queueing : (Control.queueing idx ctx).adds i = false := rfl

@[simp] theorem adds_added : (Reply.added idx ok).adds i = decide (idx = i) := rfl
@[simp] theorem adds_removed : (Reply.removed idx).adds i = false := rfl

@[simp] theorem now_next : Place.next.now i = [] := rfl
@[simp] theorem now_calling : (Place.calling idx c).now i = if idx = i then [c] else [] := rfl
@[simp] theorem now_forgetting : (Place.forgetting idx).now i = [] := rfl
@[simp] theorem now_clearing : (Place.clearing idx).now i = [] := rfl

@[simp] theorem forgets_next : Place.next.forgets i = false := rfl
@[simp] theorem forgets_calling : (Place.calling idx c).forgets i = false := rfl
@[simp] theorem forgets_forgetting : (Place.forgetting idx).forgets i = decide (idx = i) := rfl
@[simp] theorem forgets_clearing : (Place.clearing idx).forgets i = false := rfl

@[simp] theorem mark_added : mark i (.added idx) = if idx = i then some .added else none := rfl
@[simp] theorem mark_event : mark i (.event idx) = if idx = i then some .event else none := rfl
@[simp] theorem mark_tensors : mark i (.tensors idx) = if idx = i then some .tensors else none := rfl
@[simp] theorem mark_removed : mark i (.removed idx ctx) = if idx = i ∧ ctx.isSome then some .removed else none := rfl
@[simp] theorem mark_state : mark i (.state idx state error) = none := rfl

end

theorem view_given : (view h s i).given = true ↔ i < s.shard.nextIndex := Nat.blt_eq.to_iff

theorem view_next_given : (view h s s.shard.nextIndex).given = false :=
  Bool.eq_false_iff.mpr fun hg => absurd (view_given.mp hg) (lt_irrefl _)

theorem Inv.present_of_linked (hi : Inv h s) (hl : s.shard.index streamId = some i) :
    (s.shard.context i).isSome ∧ i < s.shard.nextIndex := by
  obtain ⟨⟨ctx, hctx, -⟩, -⟩ := hi.linked streamId i hl
  have hp : (s.shard.context i).isSome := by simp [hctx]
  exact ⟨hp, hi.fresh.lt hp⟩

/-- A registration has one `stream_id`. -/
theorem Inv.linked_unique {other : String} (hi : Inv h s) (hl : s.shard.index streamId = some i)
    (ho : s.shard.index other = some i) : other = streamId := by
  obtain ⟨⟨ctx, hctx, rfl⟩, -⟩ := hi.linked streamId i hl
  obtain ⟨⟨ctx', hctx', rfl⟩, -⟩ := hi.linked other i ho
  rw [hctx] at hctx'
  cases hctx'
  rfl

/-- A step that leaves the registry, the control thread and its replies alone. -/
theorem Inv.beside (hi : Inv h s) (hshard : s'.shard = s.shard) (hcontrol : s'.control = s.control)
    (hreplies : s'.replies = s.replies) (hreading : ∀ r ∈ s'.reading, r.idx < s.shard.nextIndex)
    (hslots : ∀ i ∈ s'.frameSlots, i < s.shard.nextIndex) (hstage : ∀ i, Stage (view h s' i)) : Inv h s' where
  fresh := by rw [hshard]; exact hi.fresh
  linked := by rw [hshard, hreplies]; exact hi.linked
  control := by
    have hc := hi.control
    unfold State.ControlOk at hc ⊢
    rw [hshard, hcontrol, hreplies]
    exact hc
  reading := by rw [hshard]; exact hreading
  slots := by rw [hshard]; exact hslots
  stage := hstage

/-! ## Adding -/

theorem Stage.removed_given {v : View} (hv : Stage v) (hg : v.given = false) : v.removed = false := by
  cases hv with
  | inside p q _ _ _ _ _ given _ _ removed =>
    have hq := given hg
    subst hq
    simpa using removed
  | dropped _ given => rw [hg] at given; cases given
  | gone _ given => rw [hg] at given; cases given

theorem Inv.addStream (hi : Inv h s) (hc : s.client = true) (hs : HookThread.addStream s spec = some s') : Inv h s' := by
  unfold HookThread.addStream at hs
  split at hs
  next hcontrol hfree =>
    simp only [hc, if_true, Option.some.injEq] at hs
    subst hs
    have hnone := (hi.fresh s.shard.nextIndex le_rfl).1
    refine ⟨hi.fresh.register, ?_, Registry.index_register_self hfree, ?_, ?_, ?_⟩
    · intro streamId i hl
      by_cases hid : streamId = spec.streamId
      · subst hid
        rw [Registry.index_register_self hfree, Option.some.injEq] at hl
        subst hl
        refine ⟨⟨_, Registry.context_register_self hi.fresh, rfl⟩, ?_⟩
        have := (hi.stage s.shard.nextIndex).removed_given view_next_given
        simpa [view] using this
      · rw [Registry.index_register_ne hid] at hl
        obtain ⟨⟨ctx, hctx, hspec⟩, hr⟩ := hi.linked streamId i hl
        have hne : i ≠ s.shard.nextIndex := by
          intro he
          rw [he, hnone] at hctx
          cases hctx
        exact ⟨⟨ctx, (Registry.context_register_ne hne).trans hctx, hspec⟩, hr⟩
    · intro r hr
      have := hi.reading r hr
      show r.idx < s.shard.nextIndex + 1
      omega
    · intro i hm
      have := hi.slots i hm
      show i < s.shard.nextIndex + 1
      omega
    · intro i
      by_cases he : i = s.shard.nextIndex
      · subst he
        have hv := (hi.stage s.shard.nextIndex).given view_next_given
        convert hv using 1
        simp [view, Registry.context_register_self hi.fresh, State.callsOf]
      · convert hi.stage i using 1
        have hlt : i.blt (s.shard.nextIndex + 1) = i.blt s.shard.nextIndex := by
          rw [Bool.eq_iff_iff, Nat.blt_eq, Nat.blt_eq]
          omega
        simp [view, hcontrol, Registry.context_register_ne he, hlt, Ne.symm he, State.callsOf]
  next => cases hs

theorem Inv.addReply (hi : Inv h s) (hs : HookThread.addReply s ok = some s') : Inv h s' := by
  unfold HookThread.addReply at hs
  split at hs
  next idx streamId hcontrol =>
    have hl : s.shard.index streamId = some idx := by
      have := hi.control
      rwa [State.ControlOk, hcontrol] at this
    obtain ⟨hp, hlt⟩ := hi.present_of_linked hl
    have hadds : ∀ i, s.control.adds i = decide (idx = i) := by simp [hcontrol]
    cases ok with
    | true =>
      simp only [if_true, Option.some.injEq] at hs
      subst hs
      refine ⟨hi.fresh, ?_, trivial, hi.reading, hi.slots, fun i => ?_⟩
      · intro streamId i hl
        obtain ⟨hctx, hr⟩ := hi.linked streamId i hl
        exact ⟨hctx, by simpa using hr⟩
      · by_cases he : idx = i
        · subst he
          have hv := (hi.stage idx).added (view_given.mpr hlt) (by simp [view, hadds])
          convert hv using 1
          simp [view, State.callsOf]
        · convert hi.stage i using 1
          simp [view, hadds, State.callsOf, he]
    | false =>
      simp only [Bool.false_eq_true, if_false, Option.some.injEq] at hs
      subst hs
      refine ⟨hi.fresh.rollback, ?_, trivial, hi.reading, hi.slots, fun i => ?_⟩
      · intro other i ho
        have hne : other ≠ streamId := by
          intro he
          rw [he] at ho
          have := Registry.index_unlist_self hl
          exact absurd (ho.symm.trans this) (by simp)
        have ho : s.shard.index other = some i := (Registry.index_unlist_ne hl hne).symm.trans ho
        have hix : i ≠ idx := fun he => hne (hi.linked_unique (he ▸ hl) ho)
        obtain ⟨⟨ctx, hctx, hspec⟩, hr⟩ := hi.linked other i ho
        exact ⟨⟨ctx, (Registry.context_forget_ne hix).trans hctx, hspec⟩, hr⟩
      · by_cases he : idx = i
        · subst he
          have hv := (hi.stage idx).rolledBack (view_given.mpr hlt) (by simp [view, hadds])
          convert hv using 1
          simp [view, State.callsOf, Registry.rollback, Registry.context_forget_self]
        · convert hi.stage i using 1
          simp [view, hadds, State.callsOf, Registry.rollback, Registry.context_forget_ne (Ne.symm he), he]
  next => cases hs

/-! ## Removing -/

theorem Inv.removeStream (hi : Inv h s) (hs : HookThread.removeStream s streamId = some s') : Inv h s' := by
  unfold HookThread.removeStream at hs
  split at hs
  next idx hcontrol hl =>
    cases hs
    refine ⟨hi.fresh, hi.linked, hl, hi.reading, hi.slots, fun i => ?_⟩
    convert hi.stage i using 1
    simp [view, hcontrol, State.callsOf]
  next => cases hs

theorem Inv.removeReply (hi : Inv h s) (hs : HookThread.removeReply s ok = some s') : Inv h s' := by
  unfold HookThread.removeReply at hs
  split at hs
  next idx streamId asked hcontrol =>
    have hl : s.shard.index streamId = some idx := by
      have := hi.control
      rwa [State.ControlOk, hcontrol] at this
    cases ok with
    | true =>
      cases hs
      refine ⟨hi.fresh, hi.linked, ⟨hl, (hi.present_of_linked hl).1⟩, hi.reading, hi.slots, fun i => ?_⟩
      convert hi.stage i using 1
      simp [view, hcontrol, State.callsOf]
    | false =>
      cases asked with
      | false => cases hs
      | true =>
        cases hs
        refine ⟨hi.fresh, hi.linked, trivial, hi.reading, hi.slots, fun i => ?_⟩
        convert hi.stage i using 1
        simp [view, hcontrol, State.callsOf]
  next => cases hs

theorem Inv.unlist (hi : Inv h s) (hs : HookThread.unlist s = some s') : Inv h s' := by
  unfold HookThread.unlist at hs
  split at hs
  next idx streamId ctx hcontrol =>
    cases hs
    obtain ⟨hl, hctx⟩ : s.shard.index streamId = some idx ∧ ctx.isSome := by
      have := hi.control
      rwa [State.ControlOk, hcontrol] at this
    have hothers : ∀ other i, (s.shard.unlist streamId idx).index other = some i → s.shard.index other = some i ∧ i ≠ idx := by
      intro other i ho
      have hne : other ≠ streamId := by
        intro he
        rw [he, Registry.index_unlist_self hl] at ho
        cases ho
      rw [Registry.index_unlist_ne hl hne] at ho
      exact ⟨ho, fun he => hne (hi.linked_unique (he ▸ hl) ho)⟩
    refine ⟨hi.fresh.unlist, ?_, ?_, hi.reading, hi.slots, fun i => ?_⟩
    · exact fun other i ho => hi.linked other i (hothers other i ho).1
    · exact ⟨fun other ho => (hothers other idx ho).2 rfl, (hi.present_of_linked hl).1, (hi.linked _ _ hl).2, hctx⟩
    · convert hi.stage i using 1
      simp [view, hcontrol, State.callsOf]
  next => cases hs

theorem Inv.queueRemoved (hi : Inv h s) (hs : HookThread.queueRemoved s = some s') : Inv h s' := by
  unfold HookThread.queueRemoved at hs
  split at hs
  next idx ctx hcontrol =>
    cases hs
    obtain ⟨hfree, hp, hr, hctx⟩ : (∀ streamId, s.shard.index streamId ≠ some idx) ∧ (s.shard.context idx).isSome ∧
        Reply.removed idx ∉ s.replies ∧ ctx.isSome := by
      have := hi.control
      rwa [State.ControlOk, hcontrol] at this
    have hadds : ∀ i, s.control.adds i = false := by simp [hcontrol]
    refine ⟨hi.fresh, ?_, trivial, hi.reading, hi.slots, fun i => ?_⟩
    · intro streamId i hl
      obtain ⟨hctx, hr⟩ := hi.linked streamId i hl
      have hne : i ≠ idx := fun he => hfree streamId (he ▸ hl)
      exact ⟨hctx, by simpa [hne] using hr⟩
    · by_cases he : idx = i
      · subst he
        have hv := (hi.stage idx).leaves (view_given.mpr (hi.fresh.lt hp)) (hadds idx) hp (by simpa [view] using hr)
        convert hv using 1
        simp [view, hadds, State.callsOf, List.filterMap_cons, hctx]
      · convert hi.stage i using 1
        simp [view, hadds, State.callsOf, he, Ne.symm he]
  next => cases hs

/-! ## What the readers and the start attempts queue -/

theorem view_queue {it : Item} {reading : List Record} :
    view h { s with fifo := s.fifo ++ [it], reading := reading } i =
      { view h s i with fifo := (view h s i).fifo ++ (mark i it).toList } := by
  cases hm : mark i it with
  | none => simp [view, State.callsOf, hm]
  | some c => simp [view, State.callsOf, hm]

theorem Inv.onState {state error : String} (hi : Inv h s) : Inv h (HookThread.onState s idx state error) := by
  refine hi.beside rfl rfl rfl hi.reading hi.slots fun i => ?_
  have hv := @view_queue h s i (.state idx state error) s.reading
  rw [mark_state, Option.toList_none, List.append_nil] at hv
  exact hv ▸ hi.stage i

theorem Inv.replayNext {answer : Answer} (hi : Inv h s) (hs : HookThread.replayNext s answer = some s') : Inv h s' := by
  obtain ⟨starter, rfl | ⟨idx, text, rfl⟩⟩ := replayNext_cases hs
  · exact hi.beside rfl rfl rfl hi.reading hi.slots hi.stage
  · have hstate := @Inv.onState h s idx "error" text hi
    exact hstate.beside rfl rfl rfl hi.reading hi.slots hstate.stage

theorem Inv.aside {a : Action} (hi : Inv h s) (hs : step h s a = some s') (ha : a.Aside) : Inv h s' := by
  obtain ⟨client, starter, reading, rfl, hread⟩ := step_aside hs ha
  refine hi.beside rfl rfl rfl (fun r hr => ?_) hi.slots hi.stage
  obtain hr | hp := hread r hr
  · exact hi.reading r hr
  · exact hi.fresh.lt hp

/-- An event or tensors of a stream whose add is not under way. -/
theorem Inv.queueData {it : Item} {c : Call} {reading : List Record} (hi : Inv h s) (hlt : idx < s.shard.nextIndex)
    (ha : s.control.adds idx = false) (hc : c = .event ∨ c = .tensors)
    (hm : ∀ i, mark i it = if idx = i then some c else none) (hr : ∀ r ∈ reading, r.idx < s.shard.nextIndex) :
    Inv h { s with fifo := s.fifo ++ [it], reading := reading } := by
  refine hi.beside rfl rfl rfl hr hi.slots fun i => ?_
  rw [view_queue, hm]
  by_cases he : idx = i
  · subst he
    rw [if_pos rfl]
    exact (hi.stage idx).data (view_given.mpr hlt) ha hc
  · rw [if_neg he]
    simpa using hi.stage i

theorem Inv.queueRecord {r : Record} (hi : Inv h s) (ha : Announced h s (.queueRecord r))
    (hs : HookThread.queueRecord s r = some s') : Inv h s' := by
  obtain ⟨hm, ⟨slots, dropped, hslots, rfl⟩ | ⟨it, hit, rfl⟩⟩ := queueRecord_cases hs
  · refine hi.beside rfl rfl rfl (fun x hx => hi.reading x (List.mem_of_mem_erase hx)) (fun i hx => ?_) hi.stage
    obtain hx | rfl := hslots i hx
    · exact hi.slots i hx
    · exact hi.reading r hm
  · have hlt := hi.reading r hm
    have hread : ∀ x ∈ s.reading.erase r, x.idx < s.shard.nextIndex :=
      fun x hx => hi.reading x (List.mem_of_mem_erase hx)
    obtain ⟨hr, rfl⟩ | ⟨hr, rfl⟩ := hit
    · rw [hr] at ha
      exact hi.queueData hlt ha (.inl rfl) (fun _ => rfl) hread
    · rw [hr] at ha
      exact hi.queueData hlt ha (.inr rfl) (fun _ => rfl) hread

/-! ## The hook thread -/

theorem Inv.takeBatch (hi : Inv h s) (ha : Announced h s .takeBatch) (hs : HookThread.takeBatch s = some s') :
    Inv h s' := by
  unfold HookThread.takeBatch at hs
  split at hs
  next hbatch =>
    split at hs
    · cases hs
    · cases hs
      refine hi.beside rfl rfl rfl hi.reading (by simp) fun i => ?_
      have hv := (hi.stage i).taken (b := h.wantsFrames && decide (i ∈ s.frameSlots)) (by simp [view, hbatch]) ?_
      · convert hv using 1
        simp [view, State.callsOf, hbatch]
      · intro hb
        obtain ⟨hw, hm⟩ : h.wantsFrames = true ∧ i ∈ s.frameSlots := by simpa using hb
        exact ⟨view_given.mpr (hi.slots i hm), ha hw i hm⟩
  next => cases hs

/-- What `_run_hook_item` comes to: the hook of the item is about to be called,
or there is nothing to call. -/
theorem runHookItem_cases (h : Hooks) (s : State) (it : Item) :
    (∃ shard, (shard = s.shard ∨ ∃ idx state, shard = s.shard.setState idx state) ∧
      runHookItem h s it = { s with shard := shard } ∧
      ∀ i c, mark i it = some c → (s.shard.context i).isSome = false ∧ c ≠ .removed ∨ c = .tensors) ∨
    (∃ idx state error, it = .state idx state error ∧ (s.shard.context idx).isSome ∧
      runHookItem h s it = { s with shard := s.shard.setState idx state }.goTo (.calling idx .state)) ∨
    (∃ idx c, runHookItem h s it = s.goTo (.calling idx c) ∧ (∀ i, mark i it = if idx = i then some c else none) ∧
      ((s.shard.context idx).isSome ∨ c = .removed)) := by
  unfold runHookItem
  cases hctx : s.itemContext it with
  | none =>
    refine .inl ⟨s.shard, .inl rfl, rfl, ?_⟩
    intro i c hm
    cases it with
    | added idx | event idx | tensors idx =>
      simp only [mark_added, mark_event, mark_tensors, Option.ite_none_right_eq_some, Option.some.injEq] at hm
      obtain ⟨rfl, rfl⟩ := hm
      have hctx : s.shard.context idx = none := hctx
      simp [hctx]
    | state => cases hm
    | removed idx ctx =>
      have hctx : ctx = none := hctx
      simp [hctx] at hm
  | some ctx =>
    cases it with
    | added idx =>
      have hctx : s.shard.context idx = some ctx := hctx
      exact .inr (.inr ⟨idx, .added, rfl, fun _ => rfl, .inl (by simp [hctx])⟩)
    | event idx =>
      have hctx : s.shard.context idx = some ctx := hctx
      exact .inr (.inr ⟨idx, .event, rfl, fun _ => rfl, .inl (by simp [hctx])⟩)
    | tensors idx =>
      have hctx : s.shard.context idx = some ctx := hctx
      dsimp only
      split
      · exact .inr (.inr ⟨idx, .tensors, rfl, fun _ => rfl, .inl (by simp [hctx])⟩)
      · refine .inl ⟨s.shard, .inl rfl, rfl, fun i c hm => .inr ?_⟩
        simp only [mark_tensors, Option.ite_none_right_eq_some, Option.some.injEq] at hm
        exact hm.2.symm
    | removed idx carried =>
      have hctx : carried = some ctx := hctx
      refine .inr (.inr ⟨idx, .removed, rfl, fun i => ?_, .inr rfl⟩)
      simp [hctx]
    | state idx state error =>
      have hctx : s.shard.context idx = some ctx := hctx
      dsimp only
      split
      · exact .inl ⟨s.shard, .inl rfl, rfl, by simp⟩
      · split
        · exact .inr (.inl ⟨idx, state, error, rfl, by simp [hctx], rfl⟩)
        · exact .inl ⟨_, .inr ⟨idx, state, rfl⟩, rfl, by simp⟩

theorem view_setState {state : String} : view h { s with shard := s.shard.setState idx state } i = view h s i := by
  have : ((s.shard.setState idx state).context i).isSome = (s.shard.context i).isSome := by
    rw [Registry.context_setState, Option.isSome_map]
  simp [view, this, State.callsOf]

theorem Inv.setState {state : String} (hi : Inv h s) : Inv h { s with shard := s.shard.setState idx state } where
  fresh := hi.fresh.setState
  linked := by
    intro streamId i hl
    obtain ⟨⟨ctx, hctx, hspec⟩, hr⟩ := hi.linked streamId i hl
    refine ⟨⟨_, by rw [Registry.context_setState, hctx]; rfl, ?_⟩, hr⟩
    split
    · exact hspec
    · exact hspec
  control := by
    have hc := hi.control
    have hp : ∀ i, ((s.shard.setState idx state).context i).isSome = (s.shard.context i).isSome := by
      intro i
      rw [Registry.context_setState, Option.isSome_map]
    simpa only [State.ControlOk, Registry.index_setState, hp] using hc
  reading := hi.reading
  slots := hi.slots
  stage i := by
    rw [view_setState]
    exact hi.stage i

theorem Inv.runItem {it : Item} {items : List Item} {frames : List Nat} (hi : Inv h s)
    (hbatch : s.batch = { items := it :: items, frames := frames, place := .next }) :
    Inv h (runHookItem h { s with batch := { items := items, frames := frames, place := .next } } it) := by
  have hnow : ∀ i, (view h s i).now = [] := by simp [view, hbatch]
  have hforgets : ∀ i, (view h s i).forgetting = false := by simp [view, hbatch]
  obtain ⟨shard, hshard, hs, hskip⟩ | ⟨idx, state, error, rfl, hp, hs⟩ | ⟨idx, c, hs, hm, hp⟩ :=
    runHookItem_cases h { s with batch := { items := items, frames := frames, place := .next } } it
  · have hskipped : Inv h { s with batch := { items := items, frames := frames, place := .next } } := by
      refine hi.beside rfl rfl rfl hi.reading hi.slots fun i => ?_
      cases hm : mark i it with
      | none =>
        convert hi.stage i using 1
        simp [view, State.callsOf, hbatch, hm]
      | some c =>
        have hitems : (view h s i).items = c :: items.filterMap (mark i) := by simp [view, hbatch, hm]
        have hv := (hi.stage i).skipped (hnow i) hitems (hskip i c hm)
        convert hv using 1
        simp [view, State.callsOf, hbatch]
    rw [hs]
    obtain rfl | ⟨idx, state, rfl⟩ := hshard
    · exact hskipped
    · exact hskipped.setState
  · rw [hs, State.goTo]
    have hset : Inv h { s with shard := s.shard.setState idx state } := hi.setState
    refine hset.beside rfl rfl rfl hi.reading hi.slots fun i => ?_
    by_cases he : idx = i
    · subst he
      have hv := (hset.stage idx).called (c := .state) (by simp [view, hbatch]) (by simp [view, hbatch])
        (by rw [view_setState]; exact hp) (.inl rfl)
      convert hv using 1
      simp [view, State.callsOf, hbatch, List.filterMap_cons]
    · convert hset.stage i using 1
      simp [view, State.callsOf, hbatch, List.filterMap_cons, he]
  · rw [hs, State.goTo]
    refine hi.beside rfl rfl rfl hi.reading hi.slots fun i => ?_
    have hmi := hm i
    by_cases he : idx = i
    · subst he
      rw [if_pos rfl] at hmi
      have hitems : (view h s idx).items = c :: items.filterMap (mark idx) := by simp [view, hbatch, hmi]
      have hv := (hi.stage idx).fetched (hnow idx) (hforgets idx) hitems hp
      convert hv using 1
      simp [view, State.callsOf, hbatch]
    · rw [if_neg he] at hmi
      convert hi.stage i using 1
      simp [view, State.callsOf, hbatch, hmi, he]

/-- Frames are left out, or are done. -/
theorem Inv.fewerFrames {frames frames' : List Nat} {seen : List (Nat × Nat)} (hi : Inv h s)
    (hbatch : s.batch = { items := [], frames := frames, place := .next }) (hsub : ∀ i ∈ frames', i ∈ frames) :
    Inv h { s with frameSeen := seen, batch := { items := [], frames := frames', place := .next } } := by
  refine hi.beside rfl rfl rfl hi.reading hi.slots fun i => ?_
  have hv := (hi.stage i).unframed (b := h.wantsFrames && decide (i ∈ frames')) ?_
  · convert hv using 1
    simp [view, State.callsOf, hbatch]
  · intro hb
    obtain ⟨hw, hm⟩ : h.wantsFrames = true ∧ i ∈ frames' := by simpa using hb
    simp [view, hbatch, hw, hsub i hm]

theorem Inv.runFrame {frames : List Nat} (hi : Inv h s) (hw : h.wantsFrames = true)
    (hbatch : s.batch = { items := [], frames := idx :: frames, place := .next }) :
    Inv h (runFrame h { s with batch := { items := [], frames := frames, place := .next } } idx) := by
  have hrest : Inv h { s with
      frameSeen := bump idx s.frameSeen
      batch := { items := [], frames := frames, place := .next } } :=
    hi.fewerFrames hbatch fun i hm => List.mem_cons_of_mem _ hm
  obtain hs | ⟨hp, hs⟩ := runFrame_cases h { s with batch := { items := [], frames := frames, place := .next } } idx
  · rw [hs]
    exact hrest
  · rw [hs, State.goTo]
    refine hi.beside rfl rfl rfl hi.reading hi.slots fun i => ?_
    by_cases he : idx = i
    · subst he
      have hv := (hi.stage idx).called (c := .frame) (by simp [view, hbatch]) (by simp [view, hbatch]) hp
        (.inr ⟨rfl, by simp [view, hbatch], by simp [view, hbatch, hw]⟩)
      have hv := hv.unframed (b := decide (idx ∈ frames)) (fun _ => by simp [view, hbatch, hw])
      convert hv using 1
      simp [view, State.callsOf, hbatch, hw]
    · convert hrest.stage i using 1
      simp [view, State.callsOf, he]

theorem Inv.runNext (hi : Inv h s) (hs : HookThread.runNext h s = some s') : Inv h s' := by
  unfold HookThread.runNext at hs
  split at hs
  next it items frames hbatch => cases hs; exact hi.runItem hbatch
  next idx frames hbatch =>
    split at hs
    next hw => cases hs; exact hi.runFrame hw hbatch
    next => cases hs; exact hi.fewerFrames hbatch (by simp)
  next => cases hs

theorem Inv.call (hi : Inv h s) (hs : HookThread.call s = some s') : Inv h s' := by
  obtain ⟨idx, c, hplace, rfl⟩ := call_cases hs
  refine hi.beside rfl rfl rfl hi.reading hi.slots fun i => ?_
  by_cases he : idx = i
  · subst he
    have hv := (hi.stage idx).call (c := c) (by simp [view, hplace])
    convert hv using 1
    by_cases hc : c = .removed
    · simp [view, State.callsOf, hc]
    · simp [view, State.callsOf, hc]
  · convert hi.stage i using 1
    by_cases hc : c = .removed
    · simp [view, State.callsOf, hplace, hc, he]
    · simp [view, State.callsOf, hplace, hc, he]

theorem Stage.removed_of_forgetting {v : View} (hv : Stage v) (hf : v.forgetting = true) : v.removed = true := by
  cases hv with
  | inside _ _ _ _ _ forgetting => rw [hf] at forgetting; cases forgetting
  | dropped _ _ _ _ forgetting => rw [hf] at forgetting; cases forgetting
  | gone _ _ _ _ _ removed => exact removed

theorem Inv.forget (hi : Inv h s) (hs : HookThread.forget s = some s') : Inv h s' := by
  unfold HookThread.forget at hs
  split at hs
  next idx hplace =>
    cases hs
    have hforgetting : (view h s idx).forgetting = true := by simp [view, hplace]
    have hr : Reply.removed idx ∈ s.replies := by
      simpa [view] using (hi.stage idx).removed_of_forgetting hforgetting
    rw [State.goTo]
    refine ⟨hi.fresh.forget, ?_, ?_, hi.reading, hi.slots, fun i => ?_⟩
    · intro streamId i hl
      obtain ⟨⟨ctx, hctx, hspec⟩, hri⟩ := hi.linked streamId i hl
      have hne : i ≠ idx := fun he => hri (he ▸ hr)
      exact ⟨⟨ctx, (Registry.context_forget_ne hne).trans hctx, hspec⟩, hri⟩
    · have hc := hi.control
      unfold State.ControlOk at hc ⊢
      cases hcontrol : s.control with
      | queueing i ctx =>
        simp only [hcontrol] at hc ⊢
        obtain ⟨hfree, hp, hri, hctx⟩ := hc
        have hne : i ≠ idx := fun he => hri (he ▸ hr)
        exact ⟨hfree, by rwa [Registry.context_forget_ne hne], hri, hctx⟩
      | idle | rollingBack => trivial
      | adding | removing | unlisting => simpa only [hcontrol, Registry.index_forget] using hc
    · by_cases he : idx = i
      · subst he
        have hv := (hi.stage idx).forget hforgetting
        convert hv using 1
        simp [view, State.callsOf, hplace, Registry.context_forget_self]
      · convert hi.stage i using 1
        simp [view, State.callsOf, hplace, Registry.context_forget_ne (Ne.symm he), he]
  next idx hplace =>
    cases hs
    rw [State.goTo]
    refine hi.beside rfl rfl rfl hi.reading (fun i hm => hi.slots i (List.mem_of_mem_filter hm)) fun i => ?_
    convert hi.stage i using 1
    simp [view, State.callsOf, hplace]
  next => cases hs

/-! ## Runs -/

theorem step_inv {a : Action} (hi : Inv h s) (ha : Announced h s a) (hs : step h s a = some s') : Inv h s' := by
  cases a with
  | addStream spec => exact hi.addStream ha hs
  | addReply ok => exact hi.addReply hs
  | rollBack =>
    simp only [step, rollBack] at hs
    split at hs
    next idx hcontrol =>
      cases hs
      refine ⟨hi.fresh, hi.linked, trivial, hi.reading, fun i hm => hi.slots i (List.mem_of_mem_filter hm), fun i => ?_⟩
      convert hi.stage i using 1
      simp [view, State.callsOf, hcontrol]
    next => cases hs
  | removeStream streamId => exact hi.removeStream hs
  | removeReply ok => exact hi.removeReply hs
  | unlist => exact hi.unlist hs
  | queueRemoved => exact hi.queueRemoved hs
  | startRuntime | hello | replay | onRecord | onExit => exact hi.aside hs trivial
  | replayNext answer => exact hi.replayNext hs
  | queueRecord r => exact hi.queueRecord ha hs
  | onState idx state error => cases hs; exact hi.onState
  | takeBatch => exact hi.takeBatch ha hs
  | runNext => exact hi.runNext hs
  | call => exact hi.call hs
  | forget => exact hi.forget hs

theorem Inv.init : Inv h State.init where
  fresh := Registry.Fresh.empty
  linked := by
    intro streamId i hl
    cases hl
  control := trivial
  reading := by simp [State.init]
  slots := by simp [State.init]
  stage i := .inside .fresh .fresh rfl rfl (by simp) rfl (by simp [view, State.init, Registry.empty])
    (fun _ => rfl) (by simp [view, State.init, Registry.empty]) (by simp [view, State.init])
    (by simp [view, State.init]) (by simp [view, State.init]) (by simp [view, State.init, View.waiting])

/-- The hook thread has done all there is. -/
def State.Drained (s : State) : Prop := s.fifo = [] ∧ s.batch = { items := [], frames := [], place := .next }

/-- Then nothing waits any more: what has been caused is made. -/
theorem Lifecycle.made (hl : Lifecycle s i) (hd : s.Drained) :
    (∀ ok, Reply.added i ok ∈ s.replies → .added ∈ s.callsOf i) ∧
      (Reply.removed i ∈ s.replies → .removed ∈ s.callsOf i) := by
  have hw : s.waiting i = [] := by simp [State.waiting, hd.1, hd.2]
  have ha := hl.added
  have hr := hl.removed
  rw [hw] at ha hr
  exact ⟨fun ok h => (ha ok h).resolve_right (by simp), fun h => (hr h).resolve_right (by simp)⟩

theorem Inv.keeps (hi : Inv h s) (i : Nat) : Lifecycle s i where
  ordered := (hi.stage i).calls_ordered
  added ok hr := by
    refine (hi.stage i).added_waits ?_
    exact List.any_eq_true.mpr ⟨_, hr, by simp⟩
  removed hr := (hi.stage i).removed_waits (by simpa [view] using hr)

/-- **Every registration keeps to the lifecycle** in every state of a run that
registers no stream while the runtime is down, and lets nothing of a stream
reach the hook thread while its add is under way. -/
theorem lifecycle_of_announced {as : List Action} (hm : Meets (step h) (Announced h) .init as)
    (hr : run (step h) .init as = some s) (i : Nat) : Lifecycle s i :=
  (run_invariant (fun _ _ _ ha hi hs => step_inv hi ha hs) hm .init hr).keeps i

def cam : StreamSpec where
  streamId := "cam-0"
  url := "rtsp://cam-0"
  name := "Door"
  transport := "tcp"
  scoreThreshold := .null
  options := .null

/-- An app that has all hooks. -/
def camHooks : Hooks :=
  { wantsFrames := true, frameStride := 1, onTensors := true, onStreamState := true, dev := false }

/-- The run of a stream that comes and goes. -/
def addedAndRemoved : List Action :=
  [.startRuntime, .hello true, .replay, .replayNext .ok, .addStream cam, .onRecord (.frame 0), .queueRecord (.frame 0),
    .onRecord (.event 0), .addReply true, .queueRecord (.event 0), .takeBatch, .runNext, .call, .runNext, .call,
    .runNext, .call, .removeStream "cam-0", .removeReply true, .unlist, .queueRemoved, .takeBatch, .runNext, .call,
    .runNext, .call, .forget, .forget]

/-- A stream added, of which there is an event and a frame, and removed. -/
theorem lifecycle_of_cam : ∃ s, run (step camHooks) .init addedAndRemoved = some s ∧
    s.callsOf 0 = [.added, .event, .frame, .state, .removed] ∧ ∀ i, Lifecycle s i := by
  have hr : run (step camHooks) .init addedAndRemoved = some _ := rfl
  have hm : Meets (step camHooks) (Announced camHooks) .init addedAndRemoved := by decide
  exact ⟨_, hr, rfl, lifecycle_of_announced hm hr⟩

/-- The runtime is down when the stream is added. The replay starts it, and the
app gets an event of a stream it was never told of. -/
theorem replay_without_added : ∃ s, run (step camHooks) .init
    [.addStream cam, .startRuntime, .hello true, .replay, .replayNext .ok, .replayNext .ok, .onRecord (.event 0),
      .queueRecord (.event 0), .takeBatch, .runNext, .call] = some s ∧
    s.replies = [.added 0 false] ∧ s.callsOf 0 = [.event] ∧ s.Drained ∧ ¬ Lifecycle s 0 := by
  refine ⟨_, rfl, rfl, rfl, ⟨rfl, rfl⟩, fun hl => ?_⟩
  have := hl.ordered
  revert this
  decide

/-- The runtime has accepted the stream, and its first event is there before
the control thread has queued `on_stream_added`. -/
theorem event_before_added : ∃ s, run (step camHooks) .init
    [.startRuntime, .hello true, .replay, .replayNext .ok, .addStream cam, .onRecord (.event 0),
      .queueRecord (.event 0), .addReply true, .takeBatch, .runNext, .call, .runNext, .call] = some s ∧
    s.replies = [.added 0 true] ∧ s.callsOf 0 = [.event, .added] ∧ ¬ Lifecycle s 0 := by
  refine ⟨_, rfl, rfl, rfl, fun hl => ?_⟩
  have := hl.ordered
  revert this
  decide

end RetailVision.HookThread
