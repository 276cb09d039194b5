/-
At most one `vb-runtime` child. `_start_lock` keeps two start attempts from
overlapping, but `_start_runtime` does not look whether a client is already
installed, and `_on_exit` clears the installed client whosever child it was
that exited. So one child at a time it is while no attempt spawns a child
under a live installed client and no late exit clears one (`Alone`); an add
between the timer and the hello is enough for a second one
(`second_runtime`).
-/
import RetailVision.ShardLifecycle

set_option linter.all false

namespace RetailVision.ShardLifecycle

open Lib

variable {n : Nat} {s s' : State} {a : Action} {c d : Nat}

/-- The client an attempt is starting. -/
def Attempt.client : Attempt → Option Nat
  | .created c | .waitingHello c | .started c | .refused c => some c
  | _ => none

/-- The client of an attempt whose child has been spawned. -/
def Attempt.child : Attempt → Option Nat
  | .waitingHello c | .started c | .refused c => some c
  | _ => none

theorem Attempt.client_of_child {at' : Attempt} (h : at'.child = some c) : at'.client = some c := by
  cases at' <;> first | exact h | cases h

/-- A client `stop` is past is dead, as far as installed ones go. -/
def Stopper.Leaves : Stopper → Nat → Prop
  | .idle, _ => True
  | .stopping cs, c => c ∈ cs
  | .done, _ => False

/-- A child that runs belongs to the attempt under way or to the client
installed, and if to both it is the same. -/
structure Inv (s : State) : Prop where
  running : ∀ c, (s.clients c).alive = true → s.attempt.child = some c ∨ s.client = some c
  alone : ∀ c d, s.attempt.child = some c → s.client = some d → (s.clients d).alive = true → d = c
  attempt_lt : ∀ c, s.attempt.client = some c → c < s.next
  client_lt : ∀ c, s.client = some c → c < s.next
  created : ∀ c, s.attempt = .created c → s.client ≠ some c
  stopped : ∀ c, s.client = some c → (s.clients c).alive = true → s.stopper.Leaves c
  stopping : s.stopper ≠ .idle → s.stopping = true

theorem Inv.at_most_one (hi : Inv s) (hc : (s.clients c).alive = true) (hd : (s.clients d).alive = true) : c = d := by
  rcases hi.running c hc with hc' | hc' <;> rcases hi.running d hd with hd' | hd'
  · exact Option.some.inj (hc'.symm.trans hd')
  · exact (hi.alone c d hc' hd' hd).symm
  · exact hi.alone d c hd' hc' hc
  · exact Option.some.inj (hc'.symm.trans hd')

/-- No attempt spawns a child while the client installed has a live one, and
no exit clears a client whose child lives. -/
def Alone (s : State) : Action → Prop
  | .spawn => ∀ c ∈ s.client, (s.clients c).alive = false
  | .readerEnds d => s.stopping = false → (s.clients d).hello = true → ∀ c ∈ s.client, c ≠ d → (s.clients c).alive = false
  | _ => True

instance (s : State) : ∀ a, Decidable (Alone s a)
  | .spawn => inferInstanceAs (Decidable (∀ c ∈ s.client, (s.clients c).alive = false))
  | .readerEnds d => inferInstanceAs (Decidable (s.stopping = false → (s.clients d).hello = true →
      ∀ c ∈ s.client, c ≠ d → (s.clients c).alive = false))
  | .acquire | .check | .spawnFails | .startRaises | .versionMismatch | .startReturns | .handleRaise
  | .countFailure | .decideFailure | .scheduleFailure | .install | .stopRefused | .beginReplay | .endReplay
  | .timerFires | .childHello _ | .childExits _ | .decideExit _ | .scheduleExit _ | .addStream | .scheduleAdd
  | .beginStop | .stopClient | .endStop => inferInstanceAs (Decidable True)

/-! ## What the blocks do to the clients -/

theorem modify_alive {f : Client → Client} (hf : (f (s.clients c)).alive = (s.clients c).alive) (d : Nat) :
    ((s.modify c f).clients d).alive = (s.clients d).alive := by
  by_cases hd : d = c
  · subst hd; simp [State.modify, hf]
  · simp [State.modify, hd]

theorem setReader_alive {r : Reader} (h : ((s.setReader c r).clients d).alive = true) : (s.clients d).alive = true := by
  rwa [State.setReader, modify_alive rfl] at h

theorem kill_alive (h : ((s.kill c).clients d).alive = true) : d ≠ c ∧ (s.clients d).alive = true := by
  by_cases hd : d = c
  · subst hd; simp [State.kill, State.modify] at h
  · simp [State.kill, State.modify, hd] at h; exact ⟨hd, h⟩

/-- The rest of the state of a client's change, or of a restart's schedule. -/
structure SameButClients (s s' : State) : Prop where
  client : s'.client = s.client
  attempt : s'.attempt = s.attempt
  next : s'.next = s.next
  stopper : s'.stopper = s.stopper
  stopping : s'.stopping = s.stopping

theorem scheduleRestart_same : SameButClients s s.scheduleRestart ∧ s.scheduleRestart.clients = s.clients := by
  unfold State.scheduleRestart
  split <;> exact ⟨⟨rfl, rfl, rfl, rfl, rfl⟩, rfl⟩

/-- A step that revives no child, installs no client, and leaves the attempt
where its child is. -/
theorem Inv.of_same (hi : Inv s) (hs : SameButClients s s')
    (hal : ∀ d, (s'.clients d).alive = true → (s.clients d).alive = true) : Inv s' where
  running d hd := by rw [hs.attempt, hs.client]; exact hi.running d (hal d hd)
  alone d e hd he ha := by
    rw [hs.attempt] at hd
    rw [hs.client] at he
    exact hi.alone d e hd he (hal e ha)
  attempt_lt d hd := by rw [hs.attempt] at hd; rw [hs.next]; exact hi.attempt_lt d hd
  client_lt d hd := by rw [hs.client] at hd; rw [hs.next]; exact hi.client_lt d hd
  created d hd := by rw [hs.attempt] at hd; rw [hs.client]; exact hi.created d hd
  stopped d hd ha := by rw [hs.client] at hd; rw [hs.stopper]; exact hi.stopped d hd (hal d ha)
  stopping hne := by rw [hs.stopper] at hne; rw [hs.stopping]; exact hi.stopping hne

/-- The attempt moves on with the child it has. -/
theorem Inv.of_child (hi : Inv s) {at' : Attempt} (hc : at'.child = s.attempt.child)
    (hcl : at'.client = s.attempt.client ∨ at'.client = none) (hcr : ∀ c, at' ≠ .created c) :
    Inv { s with attempt := at' } where
  running d hd := by rw [show State.attempt _ = at' from rfl, hc]; exact hi.running d hd
  alone d e hd := by rw [show State.attempt _ = at' from rfl, hc] at hd; exact hi.alone d e hd
  attempt_lt d hd := by
    rcases hcl with hcl | hcl <;> rw [show State.attempt _ = at' from rfl, hcl] at hd
    · exact hi.attempt_lt d hd
    · cases hd
  client_lt := hi.client_lt
  created d hd := absurd hd (hcr d)
  stopped := hi.stopped
  stopping := hi.stopping

/-- The attempt is given up, its child killed. -/
theorem Inv.of_kill (hi : Inv s) {at' : Attempt} (hc : s.attempt.child = some c) (hn : at'.child = none)
    (hcl : at'.client = none) (hcr : ∀ c, at' ≠ .created c) : Inv { s.kill c with attempt := at' } where
  running d hd := by
    obtain ⟨hne, hd⟩ := kill_alive hd
    refine .inr ((hi.running d hd).resolve_left fun h => ?_)
    rw [hc] at h
    exact hne (Option.some.inj h).symm
  alone d e hd := by rw [show State.attempt _ = at' from rfl, hn] at hd; cases hd
  attempt_lt d hd := by rw [show State.attempt _ = at' from rfl, hcl] at hd; cases hd
  client_lt := hi.client_lt
  created d hd := absurd hd (hcr d)
  stopped d hd ha := hi.stopped d hd (kill_alive ha).2
  stopping := hi.stopping

/-! ## The steps that change who runs -/

theorem Inv.check (hi : Inv s) (ha : s.attempt = .entered) : Inv s.check := by
  have hch : s.attempt.child = none := by rw [ha]; rfl
  unfold State.check
  split
  · exact hi.of_child hch.symm (.inr rfl) nofun
  · have hal : ∀ d, (Function.update s.clients s.next newClient d).alive = true → (s.clients d).alive = true := by
      intro d hd
      by_cases h : d = s.next
      · subst h; simp [newClient] at hd
      · rwa [Function.update_of_ne h] at hd
    exact
      { running := fun d hd => .inr ((hi.running d (hal d hd)).resolve_left fun h => by rw [hch] at h; cases h)
        alone := nofun
        attempt_lt := fun d hd => by cases hd; exact Nat.lt_succ_self _
        client_lt := fun d hd => Nat.lt_succ_of_lt (hi.client_lt d hd)
        created := fun d hd hc => by cases hd; exact Nat.lt_irrefl _ (hi.client_lt _ hc)
        stopped := fun d hd h => hi.stopped d hd (hal d h)
        stopping := hi.stopping }

/-- The child spawned is the only one that runs. -/
theorem Inv.spawn (hi : Inv s) (hd : ∀ c ∈ s.client, (s.clients c).alive = false) (ha : s.attempt = .created c) :
    Inv { s.modify c fun cl => { cl with alive := true, reader := .reading } with attempt := .waitingHello c } := by
  have hnone : ∀ d, (s.clients d).alive = false := fun d => by
    cases h : (s.clients d).alive with
    | false => rfl
    | true =>
      rcases hi.running d h with h' | h'
      · rw [ha] at h'; cases h'
      · rw [hd d h'] at h; cases h
  have hal : ∀ d, ((s.modify c fun cl => { cl with alive := true, reader := .reading }).clients d).alive = true →
      d = c := fun d h => by
    by_contra hne
    simp [State.modify, hne, hnone d] at h
  exact
    { running := fun d h => .inl (congrArg some (hal d h).symm)
      alone := fun d e hd _ he => by cases hd; exact hal e he
      attempt_lt := fun d h => hi.attempt_lt d (by rw [ha]; exact h)
      client_lt := hi.client_lt
      created := nofun
      stopped := fun d hc h => absurd (hal d h ▸ hc) (hi.created c ha)
      stopping := hi.stopping }

/-- The client of the attempt takes the place of one whose child is dead. -/
theorem Inv.install (hi : Inv s) (ha : s.attempt = .started c) : Inv (s.install c) := by
  have hch : s.attempt.child = some c := by rw [ha]; rfl
  have ht : Inv (s.clearStarting c) := hi.of_same ⟨rfl, rfl, rfl, rfl, rfl⟩ fun _ h => h
  unfold State.install
  split
  · exact ht.of_child hch.symm (.inl (by show _ = s.attempt.client; rw [ha]; rfl)) nofun
  next hs =>
    have hidle : s.stopper = .idle := by
      by_contra hne
      exact hs (hi.stopping hne)
    exact
      { running := fun d hd => by
          rcases hi.running d hd with h | h
          · rw [hch] at h; exact .inr h
          · exact .inr (congrArg some (hi.alone c d hch h hd).symm)
        alone := nofun
        attempt_lt := nofun
        client_lt := fun d hd => by cases hd; exact hi.attempt_lt c (Attempt.client_of_child hch)
        created := nofun
        stopped := fun d _ _ => by show Stopper.Leaves s.stopper d; rw [hidle]; trivial
        stopping := hi.stopping }

/-- The exit of a client whose child is dead leaves no other live one without
its client. -/
theorem Inv.onExit (hi : Inv s) (hdead : (s.clients d).alive = false)
    (hc : s.stopping = false → ∀ c ∈ s.client, c ≠ d → (s.clients c).alive = false) : Inv (s.onExit d) := by
  unfold State.onExit
  split
  · exact hi.of_same ⟨rfl, rfl, rfl, rfl, rfl⟩ fun _ => setReader_alive
  next hs =>
    have hs : s.stopping = false := by simpa using hs
    exact
      { running := fun e he => by
          have he : (s.clients e).alive = true := setReader_alive he
          refine .inl ((hi.running e he).resolve_right fun h => ?_)
          by_cases hed : e = d
          · rw [hed, hdead] at he; cases he
          · rw [hc hs e h hed] at he; cases he
        alone := nofun
        attempt_lt := hi.attempt_lt
        client_lt := nofun
        created := nofun
        stopped := nofun
        stopping := hi.stopping }

theorem Inv.beginStop (hi : Inv s) : Inv s.beginStop where
  running := hi.running
  alone := hi.alone
  attempt_lt := hi.attempt_lt
  client_lt := hi.client_lt
  created := hi.created
  stopped d hd _ := List.mem_append_right _ (by rw [show s.client = some d from hd]; exact List.mem_singleton_self d)
  stopping _ := rfl

theorem Inv.stopClient (hi : Inv s) {cs : List Nat} (hs : s.stopper = .stopping (c :: cs)) :
    Inv { s.kill c with stopper := .stopping cs } where
  running d hd := hi.running d (kill_alive hd).2
  alone d e hd he ha := hi.alone d e hd he (kill_alive ha).2
  attempt_lt := hi.attempt_lt
  client_lt := hi.client_lt
  created := hi.created
  stopped d hd ha := by
    have hl := hi.stopped d hd (kill_alive ha).2
    rw [hs] at hl
    exact (List.mem_cons.mp hl).resolve_left (kill_alive ha).1
  stopping _ := hi.stopping (by rw [hs]; nofun)

theorem Inv.endStop (hi : Inv s) (hs : s.stopper = .stopping []) : Inv { s with client := none, stopper := .done } where
  running d hd := by
    refine .inl ((hi.running d hd).resolve_right fun h => ?_)
    have hl := hi.stopped d h hd
    rw [hs] at hl
    exact List.not_mem_nil hl
  alone := nofun
  attempt_lt := hi.attempt_lt
  client_lt := nofun
  created := nofun
  stopped := nofun
  stopping _ := hi.stopping (by rw [hs]; nofun)

theorem step_inv (hc : Alone s a) (hi : Inv s) (hs : step n s a = some s') : Inv s' := by
  have hsame := (scheduleRestart_same (s := s)).1
  have hsched : Inv s.scheduleRestart :=
    hi.of_same hsame fun d h => by rwa [(scheduleRestart_same (s := s)).2] at h
  cases step_view hs with
  | acquire ha =>
    have hw : Inv { s with waiters := s.waiters - 1 } := hi.of_same ⟨rfl, rfl, rfl, rfl, rfl⟩ fun _ h => h
    exact hw.of_child (by show _ = s.attempt.child; rw [ha]; rfl) (.inr rfl) nofun
  | check ha => exact hi.check ha
  | spawn c ha => exact hi.spawn hc ha
  | spawnFails c ha => exact hi.of_child (by rw [ha]; rfl) (.inr rfl) nofun
  | startRaises c ha => exact hi.of_kill (by rw [ha]; rfl) rfl rfl nofun
  | versionMismatch c ha => exact hi.of_kill (by rw [ha]; rfl) rfl rfl nofun
  | startReturns c ha => exact hi.of_child (by rw [ha]; rfl) (.inl (by rw [ha]; rfl)) nofun
  | handleRaise c ha =>
    have hk : Inv ((s.kill c).clearStarting c) := hi.of_same ⟨rfl, rfl, rfl, rfl, rfl⟩ fun _ h => (kill_alive h).2
    exact hk.of_child (by show _ = s.attempt.child; rw [ha]; rfl) (.inr rfl) nofun
  | countFailure ha =>
    have hf : Inv { s with startFailures := s.startFailures + 1 } :=
      hi.of_same ⟨rfl, rfl, rfl, rfl, rfl⟩ fun _ h => h
    unfold State.countFailure
    split
    · exact hi.of_child (by rw [ha]; rfl) (.inr rfl) nofun
    · exact hf.of_child (by show _ = s.attempt.child; rw [ha]; rfl) (.inr rfl) nofun
  | decideFailure ha =>
    have hf : Inv s.scheduleErrorAll := hi.of_same ⟨rfl, rfl, rfl, rfl, rfl⟩ fun _ h => h
    unfold State.decideFailure
    split
    · exact hf.of_child (by show _ = s.attempt.child; rw [ha]; rfl) (.inr rfl) nofun
    · exact hi.of_child (by rw [ha]; rfl) (.inr rfl) nofun
  | scheduleFailure ha => exact hsched.of_child (by rw [hsame.attempt, ha]; rfl) (.inr rfl) nofun
  | install c ha => exact hi.install ha
  | stopRefused c ha => exact hi.of_kill (by rw [ha]; rfl) rfl rfl nofun
  | beginReplay c ha =>
    have hh : Inv { s with hello := true, runtimeFailed := false } :=
      hi.of_same ⟨rfl, rfl, rfl, rfl, rfl⟩ fun _ h => h
    exact hh.of_child (by show _ = s.attempt.child; rw [ha]; rfl) (.inr rfl) nofun
  | endReplay ha => exact hi.of_child (by rw [ha]; rfl) (.inr rfl) nofun
  | timerFires =>
    unfold State.timerFires
    split <;> exact hi.of_same ⟨rfl, rfl, rfl, rfl, rfl⟩ fun _ h => h
  | childHello c => exact hi.of_same ⟨rfl, rfl, rfl, rfl, rfl⟩ fun d h => by rwa [modify_alive rfl] at h
  | childExits c => exact hi.of_same ⟨rfl, rfl, rfl, rfl, rfl⟩ fun _ h => (kill_alive h).2
  | exited c hd hr hh => exact hi.onExit hd fun hns => hc hns hh
  | readerEnds c => exact hi.of_same ⟨rfl, rfl, rfl, rfl, rfl⟩ fun _ => setReader_alive
  | decideExit c =>
    unfold State.decideExit
    split <;> exact hi.of_same ⟨rfl, rfl, rfl, rfl, rfl⟩ fun _ => setReader_alive
  | scheduleExit c => exact hsched.of_same ⟨rfl, rfl, rfl, rfl, rfl⟩ fun _ => setReader_alive
  | addStream => exact hi.of_same ⟨rfl, rfl, rfl, rfl, rfl⟩ fun _ h => h
  | scheduleAdd => exact hsched.of_same ⟨rfl, rfl, rfl, rfl, rfl⟩ fun _ h => h
  | beginStop => exact hi.beginStop
  | stopClient c cs hcs => exact hi.stopClient hcs
  | endStop hcs => exact hi.endStop hcs

theorem start_inv : Inv start where
  running := nofun
  alone := nofun
  attempt_lt := nofun
  client_lt := nofun
  created := nofun
  stopped := nofun
  stopping h := absurd rfl h

/-- **One native runtime per shard**, in every run in which no attempt spawns
one beside a live installed client, and no exit clears such a client. -/
theorem one_runtime_of_alone {as : List Action} (hm : Meets (step n) Alone start as)
    (hr : run (step n) start as = some s) (hc : (s.clients c).alive = true) (hd : (s.clients d).alive = true) : c = d :=
  (run_invariant (I := Inv) (fun _ _ _ hc hi hs => step_inv hc hi hs) hm start_inv hr).at_most_one hc hd

/-! ## A restart, and an add in the middle of it -/

/-- A start attempt that installs the client `c`. -/
def startRuntime (c : Nat) : List Action :=
  [.acquire, .check, .spawn, .childHello c, .startReturns, .install, .beginReplay, .endReplay]

/-- The child of `c` exits, and the restart is scheduled. -/
def exitRuntime (c : Nat) : List Action := [.childExits c, .readerEnds c, .decideExit c, .scheduleExit c]

theorem one_runtime_of_restart :
    ∃ s, run (step 3) start (startRuntime 0 ++ exitRuntime 0 ++ ([.timerFires] : List Action) ++ startRuntime 1) = some s ∧
      (s.clients 1).alive = true ∧ ∀ d, (s.clients d).alive = true → d = 1 := by
  have halive : (run (step 3) start (startRuntime 0 ++ exitRuntime 0 ++ ([.timerFires] : List Action) ++ startRuntime 1)).map
      (fun s => (s.clients 1).alive) = some true := by decide
  obtain ⟨s, hs, ha⟩ := Option.map_eq_some_iff.mp halive
  exact ⟨s, hs, ha, fun d hd => one_runtime_of_alone (by decide) hs hd ha⟩

/-- The timer has fired and the attempt waits for the hello: an add finds no
client and schedules another restart, which then does not look again. -/
theorem second_runtime :
    ∃ s, run (step 3) start (startRuntime 0 ++ exitRuntime 0 ++ ([.timerFires, .acquire, .check, .spawn,
        .addStream, .scheduleAdd, .childHello 1, .startReturns, .install, .beginReplay, .endReplay,
        .timerFires, .acquire, .check, .spawn] : List Action)) = some s ∧
      (s.clients 1).alive = true ∧ (s.clients 2).alive = true := by
  refine ⟨_, rfl, ?_, ?_⟩ <;> rfl

end RetailVision.ShardLifecycle
