/-
A stream that is registered while the runtime is down. It is listed like any
other, and the replay adds it to the next runtime, whose records of it reach
the hooks; but only the reply to its own add would have queued its
`on_stream_added`, and there was none (`untold_of_down`).
-/
import RetailVision.HookLifecycle

set_option linter.all false

namespace RetailVision.HookThread

open ShardStreams Lib

variable {h : Hooks} {s s' : State} {i : Nat}

/-- `on_stream_added` has been called, or will be. -/
def State.Told (s : State) (i : Nat) : Prop := .added ∈ s.callsOf i ∨ .added ∈ s.waiting i

theorem told_iff : s.Told i ↔ .added ∈ s.callsOf i ∨ .added ∈ s.batch.place.now i ∨
    Item.added i ∈ s.batch.items ∨ Item.added i ∈ s.fifo := by
  have hmem : ∀ items : List Item, .added ∈ items.filterMap (mark i) ↔ Item.added i ∈ items := by
    intro items
    rw [List.mem_filterMap]
    constructor
    · intro ⟨it, hm, he⟩
      cases it with
      | added idx =>
        simp only [mark_added, Option.ite_none_right_eq_some, and_true] at he
        exact he ▸ hm
      | event | tensors | removed | state => simp at he
    · exact fun hm => ⟨_, hm, by simp⟩
  simp [State.Told, State.waiting, hmem]

/-- A step that calls no hook, and causes no call of `on_stream_added`. -/
theorem State.Told.of_sub (ht : s'.Told i) (hcalls : s'.calls = s.calls)
    (hplace : .added ∈ s'.batch.place.now i → s.Told i) (hitems : Item.added i ∈ s'.batch.items → s.Told i)
    (hfifo : Item.added i ∈ s'.fifo → s.Told i) : s.Told i := by
  obtain ht | ht | ht | ht := told_iff.mp ht
  · rw [State.callsOf, hcalls] at ht
    exact .inl ht
  · exact hplace ht
  · exact hitems ht
  · exact hfifo ht

theorem told_of_items (hm : Item.added i ∈ s.batch.items) : s.Told i := told_iff.mpr (.inr (.inr (.inl hm)))

theorem told_of_fifo (hm : Item.added i ∈ s.fifo) : s.Told i := told_iff.mpr (.inr (.inr (.inr hm)))

theorem told_of_place (hm : .added ∈ s.batch.place.now i) : s.Told i := told_iff.mpr (.inr (.inl hm))

/-- What is queued is no `on_stream_added`. -/
theorem State.Told.of_queue {its : List Item} (ht : s'.Told i) (hcalls : s'.calls = s.calls) (hbatch : s'.batch = s.batch)
    (hfifo : s'.fifo = s.fifo ++ its) (hits : ∀ it ∈ its, ∀ j, it ≠ .added j) : s.Told i := by
  refine ht.of_sub hcalls (fun h => told_of_place (hbatch ▸ h)) (fun h => told_of_items (hbatch ▸ h)) fun h => ?_
  rw [hfifo, List.mem_append] at h
  obtain h | h := h
  · exact told_of_fifo h
  · exact absurd rfl (hits _ h i)

theorem told_of_runItem {it : Item} {items : List Item} {frames : List Nat}
    (hbatch : s.batch = { items := it :: items, frames := frames, place := .next })
    (ht : (runHookItem h { s with batch := { items := items, frames := frames, place := .next } } it).Told i) :
    s.Told i := by
  have hitems : Item.added i ∈ items → s.Told i := fun hm => told_of_items (by simp [hbatch, hm])
  obtain ⟨shard, -, hs, -⟩ | ⟨idx, state, error, -, -, hs⟩ | ⟨idx, c, hs, hm, -⟩ :=
    runHookItem_cases h { s with batch := { items := items, frames := frames, place := .next } } it
  · rw [hs] at ht
    exact ht.of_sub rfl (by simp) hitems (@told_of_fifo s i)
  · rw [hs, State.goTo] at ht
    exact ht.of_sub rfl (by simp) hitems (@told_of_fifo s i)
  · rw [hs, State.goTo] at ht
    refine ht.of_sub rfl ?_ hitems (@told_of_fifo s i)
    intro hc
    obtain ⟨rfl, rfl⟩ : idx = i ∧ c = .added := by simpa [eq_comm] using hc
    have hmark := hm idx
    rw [if_pos rfl] at hmark
    cases it with
    | added j =>
      obtain rfl : j = idx := by simpa using hmark
      exact told_of_items (by simp [hbatch])
    | event | tensors | removed | state => simp at hmark

/-- Only the reply to the add under way makes a registration told. -/
theorem told_of_step {a : Action} (hs : step h s a = some s') (ht : s'.Told i) :
    s.Told i ∨ s.control.adds i = true := by
  cases a with
  | addReply ok =>
    simp only [step, addReply] at hs
    split at hs
    next idx streamId hcontrol =>
      split at hs
      · cases hs
        by_cases he : idx = i
        · exact .inr (by simp [hcontrol, he])
        · refine .inl (ht.of_sub rfl (@told_of_place s i) (@told_of_items s i) fun hm => told_of_fifo ?_)
          simpa [Ne.symm he] using hm
      · cases hs
        exact .inl ht
    next => cases hs
  | addStream spec =>
    simp only [step, addStream] at hs
    split at hs
    · split at hs <;> cases hs <;> exact .inl ht
    · cases hs
  | rollBack | removeStream | unlist =>
    simp only [step, rollBack, removeStream, unlist] at hs
    split at hs <;> cases hs
    exact .inl ht
  | removeReply ok =>
    simp only [step, removeReply] at hs
    split at hs
    · split at hs
      · cases hs; exact .inl ht
      · split at hs <;> cases hs
        exact .inl ht
    · cases hs
  | queueRemoved =>
    simp only [step, queueRemoved] at hs
    split at hs <;> cases hs
    exact .inl (ht.of_queue rfl rfl rfl (by simp))
  | startRuntime | hello | replay | onRecord | onExit =>
    obtain ⟨client, starter, reading, rfl, -⟩ := step_aside hs trivial
    exact .inl ht
  | replayNext answer =>
    obtain ⟨starter, rfl | ⟨idx, text, rfl⟩⟩ := replayNext_cases hs
    · exact .inl ht
    · exact .inl (ht.of_queue rfl rfl rfl (by simp))
  | queueRecord r =>
    obtain ⟨-, ⟨slots, dropped, -, rfl⟩ | ⟨it, hit, rfl⟩⟩ := queueRecord_cases hs
    · exact .inl ht
    · refine .inl (ht.of_queue rfl rfl rfl fun it' hm j => ?_)
      rw [List.mem_singleton.mp hm]
      obtain ⟨-, rfl⟩ | ⟨-, rfl⟩ := hit <;> simp
  | onState idx state error =>
    cases hs
    exact .inl (ht.of_queue rfl rfl rfl (by simp))
  | takeBatch =>
    simp only [step, takeBatch] at hs
    split at hs
    · split at hs <;> cases hs
      exact .inl (ht.of_sub rfl (by simp) (@told_of_fifo s i) (by simp))
    · cases hs
  | runNext =>
    simp only [step, runNext] at hs
    split at hs
    next hbatch => cases hs; exact .inl (told_of_runItem hbatch ht)
    next idx frames _ =>
      split at hs <;> cases hs
      · obtain he | ⟨-, he⟩ := runFrame_cases h { s with batch := { items := [], frames := frames, place := .next } } idx
        · rw [he] at ht
          exact .inl (ht.of_sub rfl (by simp) (by simp) (@told_of_fifo s i))
        · rw [he] at ht
          exact .inl (ht.of_sub rfl (by simp [State.goTo]) (by simp [State.goTo]) (@told_of_fifo s i))
      · exact .inl (ht.of_sub rfl (by simp) (by simp) (@told_of_fifo s i))
    next => cases hs
  | call =>
    obtain ⟨idx, c, hplace, rfl⟩ := call_cases hs
    obtain ht | ht | ht | ht := told_iff.mp ht
    · have hcalls : .added ∈ s.callsOf i ∨ idx = i ∧ c = .added := by
        simpa [State.callsOf, eq_comm] using ht
      obtain hcalls | ⟨rfl, rfl⟩ := hcalls
      · exact .inl (.inl hcalls)
      · exact .inl (told_of_place (by simp [hplace]))
    · exact absurd ht (by cases c <;> simp)
    · exact .inl (told_of_items ht)
    · exact .inl (told_of_fifo ht)
  | forget =>
    simp only [step, forget] at hs
    split at hs <;> cases hs <;>
      exact .inl (ht.of_sub rfl (by simp [State.goTo]) (@told_of_items s i) (@told_of_fifo s i))

/-- A step other than a registration gives out no index, and begins no add. -/
theorem registered_of_step {a : Action} (ha : ∀ spec, a ≠ .addStream spec) (hs : step h s a = some s') :
    s'.shard.nextIndex = s.shard.nextIndex ∧ (s'.control.adds i = true → s.control.adds i = true) ∧
      (Reply.added i false ∈ s'.replies → Reply.added i false ∈ s.replies) := by
  cases a with
  | addStream spec => exact absurd rfl (ha spec)
  | addReply ok =>
    simp only [step, addReply] at hs
    split at hs
    · split at hs <;> cases hs <;> simp
    · cases hs
  | rollBack | removeStream | unlist | queueRemoved =>
    simp only [step, rollBack, removeStream, unlist, queueRemoved] at hs
    split at hs <;> cases hs
    simp
  | removeReply ok =>
    simp only [step, removeReply] at hs
    split at hs
    · split at hs
      · cases hs; simp
      · split at hs <;> cases hs
        simp
    · cases hs
  | startRuntime | hello | replay | onRecord | onExit =>
    obtain ⟨client, starter, reading, rfl, -⟩ := step_aside hs trivial
    exact ⟨rfl, id, id⟩
  | replayNext answer =>
    obtain ⟨starter, rfl | ⟨idx, text, rfl⟩⟩ := replayNext_cases hs <;> exact ⟨rfl, id, id⟩
  | queueRecord r =>
    obtain ⟨-, ⟨slots, dropped, -, rfl⟩ | ⟨it, -, rfl⟩⟩ := queueRecord_cases hs <;> exact ⟨rfl, id, id⟩
  | onState => cases hs; exact ⟨rfl, id, id⟩
  | takeBatch =>
    simp only [step, takeBatch] at hs
    split at hs
    · split at hs <;> cases hs
      exact ⟨rfl, id, id⟩
    · cases hs
  | runNext =>
    simp only [step, runNext] at hs
    split at hs
    next it items frames _ =>
      cases hs
      obtain ⟨shard, hshard, he, -⟩ | ⟨idx, state, error, -, -, he⟩ | ⟨idx, c, he, -, -⟩ :=
        runHookItem_cases h { s with batch := { items := items, frames := frames, place := .next } } it
      · rw [he]
        obtain rfl | ⟨idx, state, rfl⟩ := hshard <;> exact ⟨rfl, id, id⟩
      · rw [he]
        exact ⟨rfl, id, id⟩
      · rw [he]
        exact ⟨rfl, id, id⟩
    next idx frames _ =>
      split at hs <;> cases hs
      · obtain he | ⟨-, he⟩ := runFrame_cases h { s with batch := { items := [], frames := frames, place := .next } } idx <;> rw [he] <;> exact ⟨rfl, id, id⟩
      · exact ⟨rfl, id, id⟩
    next => cases hs
  | call =>
    obtain ⟨idx, c, -, rfl⟩ := call_cases hs
    exact ⟨rfl, id, id⟩
  | forget =>
    simp only [step, forget] at hs
    split at hs <;> cases hs <;> exact ⟨rfl, id, id⟩

/-- What is told, or being added, has been given out with its runtime up. -/
structure Untold (s : State) : Prop where
  told : ∀ i, s.Told i ∨ s.control.adds i = true → i < s.shard.nextIndex ∧ Reply.added i false ∉ s.replies
  given : ∀ i, Reply.added i false ∈ s.replies → i < s.shard.nextIndex

theorem Untold.step {a : Action} (hu : Untold s) (hs : HookThread.step h s a = some s') : Untold s' := by
  by_cases ha : ∃ spec, a = .addStream spec
  · obtain ⟨spec, rfl⟩ := ha
    have hback : ∀ i, s'.Told i → s.Told i ∨ s.control.adds i = true := fun i ht => told_of_step hs ht
    simp only [HookThread.step, addStream] at hs
    split at hs
    next hcontrol _ =>
      split at hs
      · cases hs
        refine ⟨fun i ht => ?_, fun i hd => Nat.lt_succ_of_lt (hu.given i hd)⟩
        obtain ht | he := ht
        · obtain ⟨hlt, hd⟩ := hu.told i (hback i ht)
          exact ⟨Nat.lt_succ_of_lt hlt, hd⟩
        · have he : s.shard.nextIndex = i := by simpa using he
          subst he
          exact ⟨Nat.lt_succ_self _, fun hd => absurd (hu.given _ hd) (lt_irrefl _)⟩
      · cases hs
        refine ⟨fun i ht => ?_, fun i hd => ?_⟩
        · obtain ⟨hlt, hd⟩ := hu.told i (ht.elim (hback i) .inr)
          have hne : i ≠ s.shard.nextIndex := Nat.ne_of_lt hlt
          exact ⟨Nat.lt_succ_of_lt hlt, by simp [hd, hne]⟩
        · obtain hd | hd := List.mem_append.mp hd
          · exact Nat.lt_succ_of_lt (hu.given i hd)
          · have he : i = s.shard.nextIndex := by simpa using hd
            exact Nat.lt_succ_of_le (le_of_eq he)
    next => cases hs
  · have hreg := fun i => registered_of_step (i := i) (fun spec he => ha ⟨spec, he⟩) hs
    refine ⟨fun i ht => ?_, fun i hd => ?_⟩
    · have hold : s.Told i ∨ s.control.adds i = true := ht.elim (told_of_step hs) fun h => .inr ((hreg i).2.1 h)
      obtain ⟨hlt, hd⟩ := hu.told i hold
      exact ⟨by rwa [(hreg i).1], fun h => hd ((hreg i).2.2 h)⟩
    · rw [(hreg i).1]
      exact hu.given i ((hreg i).2.2 hd)

/-- **A stream registered while the runtime is down is never told of**: in no
run does it get its `on_stream_added`, whatever the replay does. -/
theorem untold_of_down {as : List Action} (hr : run (step h) .init as = some s) (hd : Reply.added i false ∈ s.replies) :
    ¬ s.Told i ∧ ¬ Lifecycle s i := by
  have hinit : Untold .init := ⟨by simp [told_iff, State.init, State.callsOf], by simp [State.init]⟩
  have hu : Untold s := run_invariant' (fun _ _ _ hu hs => hu.step hs) hinit hr
  have hnot : ¬ s.Told i := fun ht => (hu.told i (.inl ht)).2 hd
  exact ⟨hnot, fun hl => hnot (hl.added false hd)⟩

end RetailVision.HookThread
