/-
A shard never goes silent: after its first start, while it is not stopping,
there is a live client, or an exit to be reported, a start attempt, a restart
to come, or `runtime_failed` (`Supervised`). `_start_runtime` answers for
that where `client.start` raises `TimeoutError` or `RuntimeGone`; an `OSError`
of `socketpair` or `Popen` leaves the restart thread with nothing in its
place (`spawn_error_silences`). So does an exit that gives up while the
attempt it is about to be overruled by is still on its way to say
`runtime_failed = False`. Runs without either stay supervised
(`supervised_of_retried`).
-/
import RetailVision.ShardOneRuntime

set_option linter.all false

namespace RetailVision.ShardLifecycle

open Lib

variable {n : Nat} {s s' : State} {a : Action} {c d : Nat} {b : Bool}

namespace State

/-- A restart thread is in its backoff, or on its way into `_start_runtime`. -/
def Waiting (s : State) : Prop := 0 < s.timers ∨ 0 < s.waiters

/-- A reader is inside `_on_exit`. -/
def Reporting (s : State) : Prop :=
  ∃ c, (∃ b, (s.clients c).reader = .noted b) ∨ (s.clients c).reader = .scheduling

end State

/-- A live client is installed, or its exit is about to be reported, or an
exit is being reported, or a start attempt is executing, or a restart is
scheduled, or the runtime is said to have failed. -/
def Supervised (s : State) : Prop :=
  (∃ c, s.client = some c ∧ (s.clients c).alive = true) ∨
    (∃ c, s.client = some c ∧ (s.clients c).alive = false ∧ (s.clients c).reader = .reading) ∨
    s.Reporting ∨ (s.attempt ≠ .free ∨ 0 < s.waiters) ∨ 0 < s.timers ∨ s.runtimeFailed = true

/-- The client of an attempt whose child is spawned, until the streams are
added again. -/
def Attempt.holder : Attempt → Option Nat
  | .waitingHello c | .started c | .installed c => some c
  | _ => none

/-- After the first hello no attempt fails to spawn its child, and a version
that does not fit is found once the reader of the killed child is past it;
before, an exit that gives up is neither that of the client being started
nor one that has cleared it. -/
def Retried (n : Nat) (s : State) : Action → Prop
  | .spawnFails => s.hello = false
  | .versionMismatch => s.hello = true → ∀ c ∈ s.attempt.holder, (s.clients c).reader ≠ .reading
  | .decideExit d => s.hello = false → (s.clients d).reader = .noted false → n ≤ s.startFailures →
      ∀ c ∈ s.attempt.holder, d ≠ c ∧ (s.attempt = .installed c → s.client = some c)
  | _ => True

instance (n : Nat) (s : State) : (a : Action) → Decidable (Retried n s a)
  | .spawnFails => inferInstanceAs (Decidable (s.hello = false))
  | .versionMismatch =>
    inferInstanceAs (Decidable (s.hello = true → ∀ c ∈ s.attempt.holder, (s.clients c).reader ≠ .reading))
  | .decideExit d => inferInstanceAs (Decidable (s.hello = false → (s.clients d).reader = .noted false →
      n ≤ s.startFailures → ∀ c ∈ s.attempt.holder, d ≠ c ∧ (s.attempt = .installed c → s.client = some c)))
  | .acquire | .check | .spawn | .startRaises | .startReturns | .handleRaise | .countFailure | .decideFailure
  | .scheduleFailure | .install | .stopRefused | .beginReplay | .endReplay | .timerFires | .childHello _
  | .childExits _ | .readerEnds _ | .scheduleExit _ | .addStream | .scheduleAdd | .beginStop | .stopClient
  | .endStop => instDecidableTrue

/-! ## What one step does -/

/-- A stop is for good. -/
theorem step_stopping (hs : step n s a = some s') (h : s.stopping = true) : s'.stopping = true := by
  cases step_view hs with
  | check => unfold State.check; split <;> exact h
  | countFailure => unfold State.countFailure; split <;> exact h
  | decideFailure => unfold State.decideFailure; split <;> exact h
  | scheduleFailure => unfold State.scheduleRestart; split <;> exact h
  | install => unfold State.install; dsimp only; split <;> exact h
  | timerFires => unfold State.timerFires; split <;> exact h
  | exited => unfold State.onExit; split <;> exact h
  | decideExit => unfold State.decideExit; split <;> exact h
  | scheduleExit | scheduleAdd => unfold State.scheduleRestart; split <;> exact h
  | beginStop => rfl
  | _ => exact h

theorem stopping_of_step (hs : step n s a = some s') (h : s'.stopping = false) : s.stopping = false := by
  cases hst : s.stopping with
  | false => rfl
  | true => rw [step_stopping hs hst] at h; exact h

/-- What a step does to one client, in a shard that is not stopping. -/
inductive Moves (n : Nat) (s : State) (a : Action) (s' : State) (d : Nat) : Prop
  | same (hr : (s'.clients d).reader = (s.clients d).reader) (hh : (s'.clients d).hello = (s.clients d).hello)
  | hello (hr : (s.clients d).reader = .reading) (hr' : (s'.clients d).reader = .reading)
  | fresh (ha : s.attempt = .entered) (hd : d = s.next)
  | spawned (ha : s.attempt = .created d) (hr' : (s'.clients d).reader = .reading)
  | exits (hr : (s.clients d).reader = .reading) (hr' : (s'.clients d).reader = .noted s.hello)
  | ends (hr : (s.clients d).reader = .reading) (hr' : (s'.clients d).reader = .done)
      (hh : (s.clients d).hello = false) (hh' : (s'.clients d).hello = false)
  | decides (b : Bool) (hr : (s.clients d).reader = .noted b) (hr' : (s'.clients d).reader = .scheduling)
  | givesUp (ha : a = .decideExit d) (hr : (s.clients d).reader = .noted false) (hn : n ≤ s.startFailures)
      (hr' : (s'.clients d).reader = .done) (hf : s'.runtimeFailed = true)
  | schedules (hr : (s.clients d).reader = .scheduling) (hr' : (s'.clients d).reader = .done) (hw : s'.Waiting)

/-- A client that is not the one changed. -/
theorem moves_of_eq (h : s'.clients d = s.clients d) : Moves n s a s' d := .same (by rw [h]) (by rw [h])

theorem moves_of_update {cl : Client} (hh : s'.clients = Function.update s.clients c cl)
    (hc : s'.clients c = cl → Moves n s a s' c) (d : Nat) : Moves n s a s' d := by
  by_cases hd : d = c
  · subst hd
    exact hc (by rw [hh]; exact Function.update_self ..)
  · exact moves_of_eq (by rw [hh]; exact Function.update_of_ne hd ..)

theorem scheduleRestart_clients : s.scheduleRestart.clients = s.clients := by
  unfold State.scheduleRestart
  split <;> rfl

/-- Scheduled now or before, the restart is to come. -/
theorem scheduleRestart_waiting (hs : s.stopping = false) (ht : s.restartScheduled = true → 0 < s.timers) :
    s.scheduleRestart.Waiting := by
  unfold State.scheduleRestart State.Waiting
  rw [hs]
  by_cases hr : s.restartScheduled = true
  · simp [hr, ht hr]
  · simp [hr]

/-- **Every step is one of these to a client.** -/
theorem step_moves (hs : step n s a = some s') (hst : s'.stopping = false) (ht : s.restartScheduled = true → 0 < s.timers)
    (d : Nat) : Moves n s a s' d := by
  have hst₀ := stopping_of_step hs hst
  cases step_view hs with
  | acquire | spawnFails | startReturns | beginReplay | endReplay | addStream | beginStop | endStop =>
    exact .same rfl rfl
  | check ha =>
    unfold State.check
    split
    · exact .same rfl rfl
    · by_cases hd : d = s.next
      · exact .fresh ha hd
      · exact moves_of_eq (Function.update_of_ne hd ..)
  | spawn c ha => exact moves_of_update rfl (fun he => .spawned ha (by rw [he])) d
  | startRaises | versionMismatch | handleRaise | stopRefused | childExits | stopClient =>
    exact moves_of_update rfl (fun he => .same (by rw [he]) (by rw [he])) d
  | countFailure => unfold State.countFailure; split <;> exact .same rfl rfl
  | decideFailure => unfold State.decideFailure; split <;> exact .same rfl rfl
  | install => unfold State.install; dsimp only; split <;> exact .same rfl rfl
  | timerFires => unfold State.timerFires; split <;> exact .same rfl rfl
  | scheduleFailure | scheduleAdd => exact moves_of_eq (congrFun scheduleRestart_clients d)
  | childHello c hr => exact moves_of_update rfl (fun he => .hello hr (by rw [he]; exact hr)) d
  | exited c _ hr =>
    unfold State.onExit
    rw [hst₀]
    exact moves_of_update rfl (fun he => .exits hr (by rw [he])) d
  | readerEnds c _ hr hh =>
    exact moves_of_update rfl (fun he => .ends hr (by rw [he]) hh (by rw [he]; exact hh)) d
  | decideExit c hadHello hr =>
    unfold State.decideExit
    split
    next hg =>
      simp only [Bool.and_eq_true, Bool.not_eq_true', decide_eq_true_eq] at hg
      rw [hg.1] at hr
      exact moves_of_update rfl (fun he => .givesUp rfl hr hg.2 (by rw [he]) rfl) d
    · exact moves_of_update rfl (fun he => .decides _ hr (by rw [he])) d
  | scheduleExit c hr =>
    have hw := scheduleRestart_waiting hst₀ ht
    have hcl : (s.scheduleRestart.setReader c .done).clients =
        Function.update s.clients c { s.clients c with reader := .done } := by
      unfold State.setReader State.modify
      rw [scheduleRestart_clients]
    exact moves_of_update hcl (fun he => .schedules hr (by rw [he]) hw) d

/-- A restart to come comes to an attempt. -/
theorem step_waiting (hs : step n s a = some s') (hst : s'.stopping = false) (hw : s.Waiting) :
    s'.Waiting ∨ s'.attempt = .entered := by
  have hst₀ := stopping_of_step hs hst
  have hsched : s.scheduleRestart.Waiting := by
    unfold State.scheduleRestart
    split
    · exact hw
    · exact .inl (Nat.succ_pos _)
  cases step_view hs with
  | acquire => exact .inr rfl
  | check => left; unfold State.check; split <;> exact hw
  | countFailure => left; unfold State.countFailure; split <;> exact hw
  | decideFailure => left; unfold State.decideFailure; split <;> exact hw
  | install => left; unfold State.install; dsimp only; split <;> exact hw
  | exited => left; unfold State.onExit; split <;> exact hw
  | decideExit => left; unfold State.decideExit; split <;> exact hw
  | timerFires =>
    left
    unfold State.timerFires
    rw [hst₀]
    exact .inr (Nat.succ_pos _)
  | scheduleFailure | scheduleExit | scheduleAdd => exact .inl hsched
  | _ => exact .inl hw

/-- A restart said to be scheduled has a thread of its own. -/
theorem step_timers (hs : step n s a = some s') (hst : s'.stopping = false)
    (ht : s.restartScheduled = true → 0 < s.timers) : s'.restartScheduled = true → 0 < s'.timers := by
  have hst₀ := stopping_of_step hs hst
  have hsched : s.scheduleRestart.restartScheduled = true → 0 < s.scheduleRestart.timers := by
    unfold State.scheduleRestart
    split
    · exact ht
    · exact fun _ => Nat.succ_pos _
  cases step_view hs with
  | check => unfold State.check; split <;> exact ht
  | countFailure => unfold State.countFailure; split <;> exact ht
  | decideFailure => unfold State.decideFailure; split <;> exact ht
  | install => unfold State.install; dsimp only; split <;> exact ht
  | exited => unfold State.onExit; split <;> exact ht
  | decideExit => unfold State.decideExit; split <;> exact ht
  | timerFires =>
    unfold State.timerFires
    rw [hst₀]
    exact nofun
  | scheduleFailure | scheduleExit | scheduleAdd => exact hsched
  | _ => exact ht

/-- The client installed is kept, or an attempt's takes its place, or an exit
clears it. -/
theorem step_client (hs : step n s a = some s') (hst : s'.stopping = false)
    (hstop : s.stopper ≠ .idle → s.stopping = true) : s'.client = s.client ∨
    (∃ c, s.attempt = .started c ∧ s'.client = some c ∧ s'.attempt = .installed c) ∨
    s'.client = none ∧ ∃ d, (s'.clients d).reader = .noted s.hello := by
  have hst₀ := stopping_of_step hs hst
  cases step_view hs with
  | check => left; unfold State.check; split <;> rfl
  | countFailure => left; unfold State.countFailure; split <;> rfl
  | decideFailure => left; unfold State.decideFailure; split <;> rfl
  | scheduleFailure | scheduleExit | scheduleAdd => left; unfold State.scheduleRestart; split <;> rfl
  | install c ha =>
    unfold State.install
    rw [hst₀]
    exact .inr (.inl ⟨c, ha, rfl, rfl⟩)
  | timerFires => left; unfold State.timerFires; split <;> rfl
  | exited c =>
    unfold State.onExit
    rw [hst₀]
    exact .inr (.inr ⟨rfl, c, by simp [State.setReader, State.modify]⟩)
  | decideExit => left; unfold State.decideExit; split <;> rfl
  | endStop hidle =>
    have hon := hstop (by simp [hidle])
    rw [hst₀] at hon
    cases hon
  | _ => exact .inl rfl

theorem step_stopper (hs : step n s a = some s') (hstop : s.stopper ≠ .idle → s.stopping = true) :
    s'.stopper ≠ .idle → s'.stopping = true := by
  cases step_view hs with
  | check => unfold State.check; split <;> exact hstop
  | countFailure => unfold State.countFailure; split <;> exact hstop
  | decideFailure => unfold State.decideFailure; split <;> exact hstop
  | scheduleFailure | scheduleExit | scheduleAdd => unfold State.scheduleRestart; split <;> exact hstop
  | install => unfold State.install; dsimp only; split <;> exact hstop
  | timerFires => unfold State.timerFires; split <;> exact hstop
  | exited => unfold State.onExit; split <;> exact hstop
  | decideExit => unfold State.decideExit; split <;> exact hstop
  | beginStop => exact fun _ => rfl
  | stopClient c cs hc => exact fun _ => hstop (by simp [hc])
  | endStop hc => exact fun _ => hstop (by simp [hc])
  | _ => exact hstop

/-- An action of the thread inside `_start_runtime`. -/
def Action.ofAttempt : Action → Bool
  | .timerFires | .addStream | .scheduleAdd | .beginStop | .stopClient | .endStop | .childHello _ | .childExits _
  | .readerEnds _ | .decideExit _ | .scheduleExit _ => false
  | _ => true

/-- The other threads leave the attempt where it is. -/
structure Beside (s s' : State) : Prop where
  attempt : s'.attempt = s.attempt
  hello : s'.hello = s.hello
  next : s'.next = s.next

theorem scheduleRestart_beside : Beside s s.scheduleRestart := by
  unfold State.scheduleRestart
  split <;> exact ⟨rfl, rfl, rfl⟩

theorem step_beside (hs : step n s a = some s') (ha : a.ofAttempt = false) : Beside s s' := by
  cases step_view hs with
  | timerFires => unfold State.timerFires; split <;> exact ⟨rfl, rfl, rfl⟩
  | exited => unfold State.onExit; split <;> exact ⟨rfl, rfl, rfl⟩
  | decideExit => unfold State.decideExit; split <;> exact ⟨rfl, rfl, rfl⟩
  | scheduleExit | scheduleAdd =>
    have hb := scheduleRestart_beside (s := s)
    exact ⟨hb.attempt, hb.hello, hb.next⟩
  | childHello | childExits | readerEnds | addStream | beginStop | stopClient | endStop => exact ⟨rfl, rfl, rfl⟩
  | _ => cases ha

/-- Where the attempt is after a step, and where it was if it has a client. -/
inductive Comes (s s' : State) : Prop
  | same (h : s'.attempt = s.attempt) (hn : s'.next = s.next)
  | bare (h : s'.attempt.client = none) (hh : s'.attempt.holder = none)
  | created (h : s'.attempt = .created s.next) (hn : s'.next = s.next + 1)
  | waitingHello (c : Nat) (ha : s.attempt = .created c) (h : s'.attempt = .waitingHello c) (hn : s'.next = s.next)
      (hr : (s'.clients c).reader = .reading)
  | started (c : Nat) (ha : s.attempt = .waitingHello c) (h : s' = { s with attempt := .started c }) (hh : (s.clients c).hello = true)
  | refused (c : Nat) (ha : s.attempt = .started c) (h : s'.attempt = .refused c) (hn : s'.next = s.next) (hst : s'.stopping = true)
  | installed (c : Nat) (ha : s.attempt = .started c) (h : s'.attempt = .installed c) (hcl : s'.client = some c)

theorem step_comes (hs : step n s a = some s') : Comes s s' := by
  cases step_view hs with
  | acquire | spawnFails | startRaises | versionMismatch | handleRaise | scheduleFailure | stopRefused | beginReplay | endReplay =>
    exact .bare rfl rfl
  | check =>
    unfold State.check
    split
    · exact .bare rfl rfl
    · exact .created rfl rfl
  | countFailure => unfold State.countFailure; split <;> exact .bare rfl rfl
  | decideFailure => unfold State.decideFailure; split <;> exact .bare rfl rfl
  | spawn c ha => exact .waitingHello c ha rfl rfl (by simp [State.modify])
  | startReturns c ha hh => exact .started c ha rfl hh
  | install c ha =>
    unfold State.install
    dsimp only
    split
    next hst => exact .refused c ha rfl rfl hst
    · exact .installed c ha rfl rfl
  | _ =>
    have hb := step_beside hs rfl
    exact .same hb.attempt hb.next

/-- An attempt has its child from its spawn on. -/
theorem step_holder (hs : step n s a = some s') (hc : s'.attempt.holder = some c) :
    s.attempt.holder = some c ∨ (s'.clients c).reader = .reading := by
  cases step_comes hs with
  | same h => exact .inl (h ▸ hc)
  | bare _ hh => rw [hc] at hh; cases hh
  | waitingHello d ha h _ hr => rw [h] at hc; cases hc; exact .inr hr
  | started d ha h => subst h; cases hc; rw [ha]; exact .inl rfl
  | installed d ha h => rw [h] at hc; cases hc; rw [ha]; exact .inl rfl
  | created h | refused _ _ h => rw [h] at hc; cases hc

/-- Where an attempt comes from that has nothing left to do but to add the
streams again. -/
theorem step_over (hs : step n s a = some s') (hst : s'.stopping = false)
    (ht : s.restartScheduled = true → 0 < s.timers) (hrefused : ∀ c, s.attempt = .refused c → s.stopping = true)
    (ho : s'.attempt = .free ∨ s'.attempt = .replaying) :
    ((s.attempt = .free ∨ s.attempt = .replaying) ∧ s'.hello = s.hello) ∨
      (a = .spawnFails ∧ s'.hello = s.hello) ∨
      (∃ c, a = .versionMismatch ∧ s.attempt = .waitingHello c ∧ (s.clients c).hello = true ∧ s'.hello = s.hello) ∨
      (∃ c, s.attempt = .installed c ∧ s' = { s with hello := true, runtimeFailed := false, attempt := .replaying }) ∨
      s'.runtimeFailed = true ∨ s'.Waiting := by
  have hst₀ := stopping_of_step hs hst
  cases step_view hs with
  | acquire | spawn | startRaises | startReturns | handleRaise => rcases ho with ho | ho <;> cases ho
  | check =>
    unfold State.check at ho
    rw [hst₀] at ho
    rcases ho with ho | ho <;> cases ho
  | spawnFails => exact .inr (.inl ⟨rfl, rfl⟩)
  | versionMismatch c ha hh => exact .inr (.inr (.inl ⟨c, rfl, ha, hh, rfl⟩))
  | countFailure =>
    unfold State.countFailure at ho
    rw [hst₀] at ho
    rcases ho with ho | ho <;> cases ho
  | decideFailure =>
    unfold State.decideFailure at ho ⊢
    split at ho
    next hn =>
      rw [if_pos hn]
      exact .inr (.inr (.inr (.inr (.inl rfl))))
    · rcases ho with ho | ho <;> cases ho
  | scheduleFailure => exact .inr (.inr (.inr (.inr (.inr (scheduleRestart_waiting hst₀ ht)))))
  | install =>
    unfold State.install at ho
    rw [hst₀] at ho
    rcases ho with ho | ho <;> cases ho
  | stopRefused c ha =>
    have hon := hrefused c ha
    rw [hst₀] at hon
    cases hon
  | beginReplay c ha => exact .inr (.inr (.inr (.inl ⟨c, ha, rfl⟩)))
  | endReplay ha => exact .inl ⟨.inr ha, rfl⟩
  | _ =>
    have hb := step_beside hs rfl
    rw [hb.attempt] at ho
    exact .inl ⟨ho, hb.hello⟩

/-- The hello is recorded as the streams start to be added again. -/
theorem step_hello (hs : step n s a = some s') :
    s'.hello = s.hello ∨ ∃ c, s.attempt = .installed c ∧ s'.attempt = .replaying := by
  cases step_view hs with
  | check => left; unfold State.check; split <;> rfl
  | countFailure => left; unfold State.countFailure; split <;> rfl
  | decideFailure => left; unfold State.decideFailure; split <;> rfl
  | scheduleFailure => exact .inl scheduleRestart_beside.hello
  | install => left; unfold State.install; dsimp only; split <;> rfl
  | beginReplay c ha => exact .inr ⟨c, ha, rfl⟩
  | acquire | spawn | spawnFails | startRaises | versionMismatch | startReturns | handleRaise | stopRefused
  | endReplay => exact .inl rfl
  | _ => exact .inl (step_beside hs rfl).hello

/-- A failure is taken back by an attempt that has installed its client. -/
theorem step_failed (hs : step n s a = some s') (hf : s.runtimeFailed = true) :
    s'.runtimeFailed = true ∨ ∃ c, s.attempt = .installed c := by
  cases step_view hs with
  | check => left; unfold State.check; split <;> exact hf
  | countFailure => left; unfold State.countFailure; split <;> exact hf
  | decideFailure => left; unfold State.decideFailure; split <;> first | exact hf | rfl
  | scheduleFailure | scheduleExit | scheduleAdd => left; unfold State.scheduleRestart; split <;> exact hf
  | install => left; unfold State.install; dsimp only; split <;> exact hf
  | timerFires => left; unfold State.timerFires; split <;> exact hf
  | exited => left; unfold State.onExit; split <;> exact hf
  | decideExit => left; unfold State.decideExit; split <;> first | exact hf | rfl
  | beginReplay c ha => exact .inr ⟨c, ha⟩
  | _ => exact .inl hf

/-- An attempt has its client installed from its install on. -/
theorem step_installed (hs : step n s a = some s') (hc : s'.attempt = .installed c) :
    s.attempt = .installed c ∨ s.attempt = .started c ∧ s'.client = some c := by
  cases step_comes hs with
  | same h => exact .inl (h ▸ hc)
  | bare _ hh => rw [hc] at hh; cases hh
  | started d ha h => subst h; cases hc
  | installed d ha h hcl => rw [h] at hc; cases hc; exact .inr ⟨ha, hcl⟩
  | created h | waitingHello _ _ h | refused _ _ h => rw [h] at hc; cases hc

/-- A client is refused only where the shard stops. -/
theorem step_refused (hs : step n s a = some s') (hr : ∀ c, s.attempt = .refused c → s.stopping = true)
    (hc : s'.attempt = .refused c) : s'.stopping = true := by
  cases step_comes hs with
  | same h => exact step_stopping hs (hr c (h ▸ hc))
  | bare h => rw [hc] at h; cases h
  | started d ha h => subst h; cases hc
  | refused d ha h _ hst => exact hst
  | created h | waitingHello _ _ h | installed _ _ h => rw [h] at hc; cases hc

/-! ## The clients in use -/

theorem step_next (hs : step n s a = some s') : s.next ≤ s'.next := by
  cases step_view hs with
  | check => unfold State.check; split <;> first | exact Nat.le_refl _ | exact Nat.le_succ _
  | countFailure => unfold State.countFailure; split <;> exact Nat.le_refl _
  | decideFailure => unfold State.decideFailure; split <;> exact Nat.le_refl _
  | scheduleFailure => exact Nat.le_of_eq scheduleRestart_beside.next.symm
  | install => unfold State.install; dsimp only; split <;> exact Nat.le_refl _
  | acquire | spawn | spawnFails | startRaises | versionMismatch | startReturns | handleRaise | stopRefused
  | beginReplay | endReplay => exact Nat.le_refl _
  | _ => exact Nat.le_of_eq (step_beside hs rfl).next.symm

theorem step_attempt_lt (hi : ∀ c, s.attempt.client = some c → c < s.next) (hs : step n s a = some s')
    (hc : s'.attempt.client = some c) : c < s'.next := by
  cases step_comes hs with
  | same h hn => rw [hn]; exact hi c (h ▸ hc)
  | bare h => rw [hc] at h; cases h
  | created h hn => rw [h] at hc; cases hc; rw [hn]; exact Nat.lt_succ_self _
  | started d ha h => subst h; cases hc; exact hi c (by rw [ha]; rfl)
  | installed d ha h => rw [h] at hc; cases hc
  | waitingHello d ha h hn | refused d ha h hn =>
    rw [h] at hc
    cases hc
    rw [hn]
    exact hi c (by rw [ha]; rfl)

theorem hello_update {cl : Client} (hu : s'.clients = Function.update s.clients d cl)
    (hd : (s.clients d).hello = true → cl.hello = true) (hh : (s.clients c).hello = true) :
    (s'.clients c).hello = true := by
  rw [hu]
  by_cases h : c = d
  · subst h
    rw [Function.update_self]
    exact hd hh
  · rwa [Function.update_of_ne h]

/-- A client that has had its hello has had it. -/
theorem step_childHello (hs : step n s a = some s') (hlt : c < s.next) (hh : (s.clients c).hello = true) :
    (s'.clients c).hello = true := by
  cases step_view hs with
  | check =>
    unfold State.check
    split
    · exact hh
    · have hu : Function.update s.clients s.next newClient c = s.clients c :=
        Function.update_of_ne (Nat.ne_of_lt hlt) ..
      exact (congrArg Client.hello hu).trans hh
  | countFailure => unfold State.countFailure; split <;> exact hh
  | decideFailure => unfold State.decideFailure; split <;> exact hh
  | install => unfold State.install; dsimp only; split <;> exact hh
  | timerFires => unfold State.timerFires; split <;> exact hh
  | scheduleFailure | scheduleAdd =>
    exact (congrArg Client.hello (congrFun scheduleRestart_clients c)).trans hh
  | spawn | startRaises | versionMismatch | handleRaise | stopRefused | childExits | stopClient | readerEnds =>
    exact hello_update rfl id hh
  | childHello => exact hello_update rfl (fun _ => rfl) hh
  | exited d =>
    unfold State.onExit
    split <;> exact hello_update rfl id hh
  | decideExit d =>
    unfold State.decideExit
    split <;> exact hello_update rfl id hh
  | scheduleExit d =>
    have hu : (s.scheduleRestart.setReader d .done).clients =
        Function.update s.clients d { s.clients d with reader := .done } := by
      unfold State.setReader State.modify
      rw [scheduleRestart_clients]
    exact hello_update hu id hh
  | acquire | spawnFails | startReturns | beginReplay | endReplay | addStream | beginStop | endStop => exact hh

/-! ## The invariant -/

/-- Some reader is reporting an exit it has noted since the last start. -/
def State.ReportingNow (s : State) : Prop :=
  ∃ d, (s.clients d).reader = .noted s.hello ∨ (s.clients d).reader = .scheduling

/-- The client installed has a reader that will report its exit, or the shard
is supervised otherwise. -/
def State.Watched (s : State) : Prop :=
  (∃ c, s.client = some c ∧ (s.clients c).reader = .reading) ∨ s.Reporting ∨ s.Waiting ∨ s.runtimeFailed = true

/-- In a shard that is not stopping: the client of an attempt, once it has
said hello, has a reader whose report leads to a restart; one installed stays
installed or its exit is reported; and with no attempt under way, the shard
is watched. -/
structure Watch (s : State) : Prop where
  timers : s.restartScheduled = true → 0 < s.timers
  attempt_lt : ∀ c, s.attempt.client = some c → c < s.next
  client_lt : ∀ c, s.client = some c → c < s.next
  client_hello : ∀ c, s.client = some c → (s.clients c).hello = true
  started_hello : ∀ c, s.attempt = .started c → (s.clients c).hello = true
  idle : ∀ c, s.attempt.holder = some c → (s.clients c).reader ≠ .idle
  noted : ∀ c b, s.attempt.holder = some c → (s.clients c).reader = .noted b → b = s.hello
  done : ∀ c, s.attempt.holder = some c → (s.clients c).hello = true → (s.clients c).reader = .done → s.Waiting
  installed : ∀ c, s.attempt = .installed c → s.client = some c ∨ s.ReportingNow ∨ s.Waiting
  ended : s.hello = true → s.attempt = .free ∨ s.attempt = .replaying → s.Watched

theorem step_started (hs : step n s a = some s') (hc : s'.attempt = .started c) :
    s.attempt = .started c ∨ s.attempt = .waitingHello c ∧ (s.clients c).hello = true ∧ s' = { s with attempt := .started c } := by
  cases step_comes hs with
  | same h => exact .inl (h ▸ hc)
  | bare h => rw [hc] at h; cases h
  | started d ha h hh => subst h; cases hc; exact .inr ⟨ha, hh, rfl⟩
  | created h | waitingHello _ _ h | refused _ _ h | installed _ _ h => rw [h] at hc; cases hc

/-- The attempt with a child is no other. -/
theorem holder_ne {o : Attempt} (hc : s.attempt.holder = some c) (ho : o.holder = none) : s.attempt ≠ o := by
  rintro rfl
  rw [hc] at ho
  cases ho

section Step

variable (hi : Watch s) (hs : step n s a = some s') (hst : s'.stopping = false)

include hi hs hst

theorem Watch.step_client_lt (hstop : s.stopper ≠ .idle → s.stopping = true) (hc : s'.client = some c) :
    c < s'.next := by
  refine Nat.lt_of_lt_of_le ?_ (step_next hs)
  rcases step_client hs hst hstop with he | ⟨d, ha, hd, -⟩ | ⟨hn, -⟩
  · exact hi.client_lt c (he ▸ hc)
  · rw [hd] at hc
    cases hc
    exact hi.attempt_lt c (by rw [ha]; rfl)
  · rw [hn] at hc
    cases hc

theorem Watch.step_client_hello (hstop : s.stopper ≠ .idle → s.stopping = true) (hc : s'.client = some c) :
    (s'.clients c).hello = true := by
  rcases step_client hs hst hstop with he | ⟨d, ha, hd, -⟩ | ⟨hn, -⟩
  · rw [he] at hc
    exact step_childHello hs (hi.client_lt c hc) (hi.client_hello c hc)
  · rw [hd] at hc
    cases hc
    exact step_childHello hs (hi.attempt_lt c (by rw [ha]; rfl)) (hi.started_hello c ha)
  · rw [hn] at hc
    cases hc

theorem Watch.step_started_hello (hc : s'.attempt = .started c) : (s'.clients c).hello = true := by
  rcases step_started hs hc with ha | ⟨-, hh, rfl⟩
  · exact step_childHello hs (hi.attempt_lt c (by rw [ha]; rfl)) (hi.started_hello c ha)
  · exact hh

theorem Watch.step_idle (hc : s'.attempt.holder = some c) : (s'.clients c).reader ≠ .idle := by
  rcases step_holder hs hc with hh | hr
  · cases step_moves hs hst hi.timers c with
    | same hr => rw [hr]; exact hi.idle c hh
    | fresh ha => exact absurd ha (holder_ne hh rfl)
    | hello _ hr' | spawned _ hr' | exits _ hr' | ends _ hr' | decides _ _ hr' | givesUp _ _ _ hr' | schedules _ hr' =>
      rw [hr']
      simp
  · rw [hr]
    simp

theorem Watch.step_noted (hc : s'.attempt.holder = some c) (hb : (s'.clients c).reader = .noted b) :
    b = s'.hello := by
  have hhello : s'.hello = s.hello := by
    rcases step_hello hs with h | ⟨d, -, hr⟩
    · exact h
    · rw [hr] at hc
      cases hc
  rw [hhello]
  rcases step_holder hs hc with hh | hr
  · cases step_moves hs hst hi.timers c with
    | same hr => exact hi.noted c b hh (hr ▸ hb)
    | fresh ha => exact absurd ha (holder_ne hh rfl)
    | exits _ hr' =>
      rw [hr'] at hb
      exact (Reader.noted.inj hb).symm
    | hello _ hr' | spawned _ hr' | ends _ hr' | decides _ _ hr' | givesUp _ _ _ hr' | schedules _ hr' =>
      rw [hr'] at hb
      cases hb
  · rw [hr] at hb
    cases hb

/-- An attempt's client whose reader is done has a restart to come: the
reader did not give up. -/
theorem Watch.step_done (hret : Retried n s a) (hc : s'.attempt.holder = some c) (hh' : (s'.clients c).hello = true)
    (hd : (s'.clients c).reader = .done) : s'.Waiting := by
  rcases step_holder hs hc with hh | hr
  · cases step_moves hs hst hi.timers c with
    | same hr he =>
      rcases step_waiting hs hst (hi.done c hh (he ▸ hh') (hr ▸ hd)) with hw | hent
      · exact hw
      · exact absurd hent (holder_ne hc rfl)
    | fresh ha => exact absurd ha (holder_ne hh rfl)
    | ends _ _ _ hn =>
      rw [hn] at hh'
      cases hh'
    | givesUp ha hr hn =>
      subst ha
      have hhello := hi.noted c false hh hr
      exact absurd rfl (hret hhello.symm hr hn c hh).1
    | schedules _ _ hw => exact hw
    | hello _ hr' | spawned _ hr' | exits _ hr' | decides _ _ hr' =>
      rw [hr'] at hd
      cases hd
  · rw [hr] at hd
    cases hd

/-- A report under way is gone on with, ends in a restart, or gives up. -/
theorem Watch.step_reporting (hne : s.attempt ≠ .entered) (hnc : ∀ c, s.attempt ≠ .created c)
    (hr : (s.clients d).reader = .noted b ∨ (s.clients d).reader = .scheduling) :
    ((s'.clients d).reader = (s.clients d).reader ∨ (s'.clients d).reader = .scheduling) ∨ s'.Waiting ∨
      a = .decideExit d ∧ (s.clients d).reader = .noted false ∧ n ≤ s.startFailures ∧ s'.runtimeFailed = true := by
  cases step_moves hs hst hi.timers d with
  | same hr => exact .inl (.inl hr)
  | fresh ha => exact absurd ha hne
  | spawned ha => exact absurd ha (hnc d)
  | hello h | exits h | ends h =>
    rw [h] at hr
    rcases hr with hr | hr <;> cases hr
  | decides _ _ hr' => exact .inl (.inr hr')
  | givesUp ha hr hn _ hf => exact .inr (.inr ⟨ha, hr, hn, hf⟩)
  | schedules _ _ hw => exact .inr (.inl hw)

theorem Watch.step_installed (hret : Retried n s a) (hstop : s.stopper ≠ .idle → s.stopping = true)
    (hc : s'.attempt = .installed c) : s'.client = some c ∨ s'.ReportingNow ∨ s'.Waiting := by
  have hhello : s'.hello = s.hello := by
    rcases step_hello hs with h | ⟨d, -, hr⟩
    · exact h
    · rw [hr] at hc
      cases hc
  rcases ShardLifecycle.step_installed hs hc with ha | ⟨-, hcl⟩
  · have hcleared : s.client = some c → s'.client = some c ∨ s'.ReportingNow ∨ s'.Waiting := by
      intro hcl
      rcases step_client hs hst hstop with he | ⟨d, hd, -⟩ | ⟨-, d, hd⟩
      · exact .inl (he.trans hcl)
      · rw [ha] at hd
        cases hd
      · exact .inr (.inl ⟨d, .inl (hhello ▸ hd)⟩)
    rcases hi.installed c ha with hcl | ⟨d, hd⟩ | hw
    · exact hcleared hcl
    · rcases hi.step_reporting hs hst (by rw [ha]; nofun) (by rw [ha]; nofun) hd with (he | he) | hw | ⟨rfl, hf, hn, -⟩
      · exact .inr (.inl ⟨d, by rw [he, hhello]; exact hd⟩)
      · exact .inr (.inl ⟨d, .inr he⟩)
      · exact .inr (.inr hw)
      · -- it gives up, and has not cleared the client
        have hnow : s.hello = false := by
          rw [hf] at hd
          rcases hd with hd | hd
          · exact (Reader.noted.inj hd).symm
          · cases hd
        exact hcleared ((hret hnow hf hn c (by rw [ha]; rfl)).2 ha)
    · rcases step_waiting hs hst hw with hw | hent
      · exact .inr (.inr hw)
      · rw [hc] at hent
        cases hent
  · exact .inl hcl

/-- A watched shard, between two attempts, is watched still. -/
theorem Watch.step_watched (hstop : s.stopper ≠ .idle → s.stopping = true)
    (ho : s.attempt = .free ∨ s.attempt = .replaying) (ho' : s'.attempt = .free ∨ s'.attempt = .replaying)
    (hw : s.Watched) : s'.Watched := by
  have hne : s.attempt ≠ .entered := by rcases ho with h | h <;> rw [h] <;> simp
  have hnc : ∀ c, s.attempt ≠ .created c := by rcases ho with h | h <;> rw [h] <;> simp
  rcases hw with ⟨c, hc, hr⟩ | ⟨d, hd⟩ | hw | hf
  · rcases step_client hs hst hstop with he | ⟨d, hd, -⟩ | ⟨-, d, hd⟩
    · rw [← he] at hc
      cases step_moves hs hst hi.timers c with
      | same hr' => exact .inl ⟨c, hc, hr'.trans hr⟩
      | hello _ hr' => exact .inl ⟨c, hc, hr'⟩
      | fresh ha => exact absurd ha hne
      | spawned ha => exact absurd ha (hnc c)
      | exits _ hr' => exact .inr (.inl ⟨c, .inl ⟨_, hr'⟩⟩)
      | ends _ _ hh =>
        rw [hi.client_hello c (he ▸ hc)] at hh
        cases hh
      | decides _ hr' | givesUp _ hr' | schedules hr' =>
        rw [hr] at hr'
        cases hr'
    · rcases ho with h | h <;> rw [h] at hd <;> cases hd
    · exact .inr (.inl ⟨d, .inl ⟨_, hd⟩⟩)
  · have hd' : ∃ b, (s.clients d).reader = .noted b ∨ (s.clients d).reader = .scheduling := by
      rcases hd with ⟨b, hb⟩ | hd
      · exact ⟨b, .inl hb⟩
      · exact ⟨true, .inr hd⟩
    obtain ⟨b, hb⟩ := hd'
    rcases hi.step_reporting hs hst hne hnc hb with (he | he) | hw | ⟨-, -, -, hf⟩
    · refine .inr (.inl ⟨d, ?_⟩)
      rw [he]
      exact hd
    · exact .inr (.inl ⟨d, .inr he⟩)
    · exact .inr (.inr (.inl hw))
    · exact .inr (.inr (.inr hf))
  · rcases step_waiting hs hst hw with hw | hent
    · exact .inr (.inr (.inl hw))
    · rcases ho' with h | h <;> rw [hent] at h <;> cases h
  · rcases step_failed hs hf with hf | ⟨c, hc⟩
    · exact .inr (.inr (.inr hf))
    · rcases ho with h | h <;> rw [h] at hc <;> cases hc

/-- A version that does not fit: the reader of the killed client is reporting
its exit, or has. -/
theorem Watch.step_mismatch (hc : s.attempt = .waitingHello c) (hh : (s.clients c).hello = true)
    (hr : (s.clients c).reader ≠ .reading) (hd : ∀ d, a ≠ .decideExit d) (hent : s'.attempt ≠ .entered) :
    s'.Watched := by
  have hhold : s.attempt.holder = some c := by rw [hc]; rfl
  have hrep : ∀ b, (s.clients c).reader = .noted b ∨ (s.clients c).reader = .scheduling → s'.Watched := by
    intro b hb
    rcases hi.step_reporting hs hst (holder_ne hhold rfl) (by rw [hc]; simp) hb with (he | he) | hw | ⟨ha, -⟩
    · rw [← he] at hb
      exact .inr (.inl ⟨c, hb.imp_left fun h => ⟨b, h⟩⟩)
    · exact .inr (.inl ⟨c, .inr he⟩)
    · exact .inr (.inr (.inl hw))
    · exact absurd ha (hd c)
  cases hrc : (s.clients c).reader with
  | idle => exact absurd hrc (hi.idle c hhold)
  | reading => exact absurd hrc hr
  | noted b => exact hrep b (.inl hrc)
  | scheduling => exact hrep true (.inr hrc)
  | done =>
    rcases step_waiting hs hst (hi.done c hhold hh hrc) with hw | h
    · exact .inr (.inr (.inl hw))
    · exact absurd h hent

omit hs hst in
/-- Once installed, the client's reader is on its exit, or on its way to a
restart. -/
theorem Watch.replaying_watched (hc : s.attempt = .installed c) :
    State.Watched { s with hello := true, runtimeFailed := false, attempt := .replaying } := by
  rcases hi.installed c hc with hcl | ⟨d, hd⟩ | hw
  · have hhold : s.attempt.holder = some c := by rw [hc]; rfl
    cases hrc : (s.clients c).reader with
    | idle => exact absurd hrc (hi.idle c hhold)
    | reading => exact .inl ⟨c, hcl, hrc⟩
    | noted b => exact .inr (.inl ⟨c, .inl ⟨b, hrc⟩⟩)
    | scheduling => exact .inr (.inl ⟨c, .inr hrc⟩)
    | done => exact .inr (.inr (.inl (hi.done c hhold (hi.client_hello c hcl) hrc)))
  · exact .inr (.inl ⟨d, hd.imp_left fun h => ⟨_, h⟩⟩)
  · exact .inr (.inr (.inl hw))

theorem Watch.step_over (hret : Retried n s a) (hstop : s.stopper ≠ .idle → s.stopping = true)
    (hrefused : ∀ c, s.attempt = .refused c → s.stopping = true) (hh : s'.hello = true)
    (ho : s'.attempt = .free ∨ s'.attempt = .replaying) : s'.Watched := by
  rcases ShardLifecycle.step_over hs hst hi.timers hrefused ho with
    ⟨ho₀, hhe⟩ | ⟨rfl, hhe⟩ | ⟨c, rfl, hc, hch, hhe⟩ | ⟨c, hc, rfl⟩ | hf | hw
  · exact hi.step_watched hs hst hstop ho₀ ho (hi.ended (hhe ▸ hh) ho₀)
  · have hno : s.hello = false := hret
    rw [hhe, hno] at hh
    cases hh
  · have hr := hret (hhe ▸ hh) c (by rw [hc]; rfl)
    exact hi.step_mismatch hs hst hc hch hr (by simp) (by rcases ho with h | h <;> rw [h] <;> simp)
  · exact hi.replaying_watched hc
  · exact .inr (.inr (.inr hf))
  · exact .inr (.inr (.inl hw))

end Step

/-- What holds of every state, and of those of a shard that is not stopping. -/
structure WatchInv (s : State) : Prop where
  stopper : s.stopper ≠ .idle → s.stopping = true
  refused : ∀ c, s.attempt = .refused c → s.stopping = true
  watch : s.stopping = false → Watch s

theorem step_watchInv (hret : Retried n s a) (hi : WatchInv s) (hs : step n s a = some s') : WatchInv s' where
  stopper := step_stopper hs hi.stopper
  refused _ hc := step_refused hs hi.refused hc
  watch hst :=
    have hw := hi.watch (stopping_of_step hs hst)
    { timers := step_timers hs hst hw.timers
      attempt_lt := fun _ hc => step_attempt_lt hw.attempt_lt hs hc
      client_lt := fun _ hc => hw.step_client_lt hs hst hi.stopper hc
      client_hello := fun _ hc => hw.step_client_hello hs hst hi.stopper hc
      started_hello := fun _ hc => hw.step_started_hello hs hst hc
      idle := fun _ hc => hw.step_idle hs hst hc
      noted := fun _ _ hc hb => hw.step_noted hs hst hc hb
      done := fun _ hc hh hd => hw.step_done hs hst hret hc hh hd
      installed := fun _ hc => hw.step_installed hs hst hret hi.stopper hc
      ended := fun hh ho => hw.step_over hs hst hret hi.stopper hi.refused hh ho }

theorem start_watchInv : WatchInv start where
  stopper h := absurd rfl h
  refused := nofun
  watch _ :=
    { timers := nofun
      attempt_lt := nofun
      client_lt := nofun
      client_hello := nofun
      started_hello := nofun
      idle := nofun
      noted := nofun
      done := nofun
      installed := nofun
      ended := nofun }

/-- **Supervision never goes silent**: in every run from the first start, in
every state after it in which the shard is not stopping, something is there
to bring the runtime back or to say that it failed. -/
theorem supervised_of_retried {as : List Action} (hm : Meets (step n) (Retried n) start as)
    (hr : run (step n) start as = some s) (hh : s.hello = true) (hst : s.stopping = false) : Supervised s := by
  have hi := (run_invariant (I := WatchInv) (fun _ _ _ hc hi hs => step_watchInv hc hi hs) hm start_watchInv hr).watch hst
  by_cases hfree : s.attempt = .free
  · rcases hi.ended hh (.inl hfree) with ⟨c, hc, hr⟩ | hr | (hw | hw) | hf
    · cases hal : (s.clients c).alive with
      | true => exact .inl ⟨c, hc, hal⟩
      | false => exact .inr (.inl ⟨c, hc, hal, hr⟩)
    · exact .inr (.inr (.inl hr))
    · exact .inr (.inr (.inr (.inr (.inl hw))))
    · exact .inr (.inr (.inr (.inl (.inr hw))))
    · exact .inr (.inr (.inr (.inr (.inr hf))))
  · exact .inr (.inr (.inr (.inl (.inl hfree))))

/-! ## A restart -/

/-- The child exits, its restart times out on the hello, and the next one
does. -/
theorem supervised_of_restart :
    ∃ s, run (step 3) start (startRuntime 0 ++ exitRuntime 0 ++ ([.timerFires, .acquire, .check, .spawn, .startRaises,
        .handleRaise, .countFailure, .decideFailure, .scheduleFailure, .childExits 1, .readerEnds 1] : List Action)) = some s ∧
      s.attempt = .free ∧ Supervised s := by
  have hm : Meets (step 3) (Retried 3) start (startRuntime 0 ++ exitRuntime 0 ++ ([.timerFires, .acquire, .check, .spawn,
      .startRaises, .handleRaise, .countFailure, .decideFailure, .scheduleFailure, .childExits 1, .readerEnds 1] : List Action)) := by
    decide
  exact ⟨_, rfl, rfl, supervised_of_retried hm rfl rfl rfl⟩

/-- The restart thread finds no file descriptor left for the child: nothing
is scheduled, and nothing said. -/
theorem spawn_error_silences :
    ∃ s, run (step 3) start (startRuntime 0 ++ exitRuntime 0 ++
        ([.timerFires, .acquire, .check, .spawnFails] : List Action)) = some s ∧
      s.hello = true ∧ s.stopping = false ∧ ¬ Supervised s := by
  refine ⟨_, rfl, rfl, rfl, ?_⟩
  rintro (⟨c, hc, -⟩ | ⟨c, hc, -⟩ | ⟨c, hr⟩ | (ha | hw) | ht | hf)
  · cases hc
  · cases hc
  · -- the first reader is done, the second was never started
    rcases c with _ | _ | k
    · rcases hr with ⟨b, hr⟩ | hr <;> cases hr
    · rcases hr with ⟨b, hr⟩ | hr <;> cases hr
    · rcases hr with ⟨b, hr⟩ | hr
      · exact Reader.noConfusion (show Reader.idle = .noted b from hr)
      · exact Reader.noConfusion (show Reader.idle = .scheduling from hr)
  · exact ha rfl
  · cases hw
  · cases ht
  · cases hf

end RetailVision.ShardLifecycle
