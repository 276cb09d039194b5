/-
When the state that is reported follows the stream. "running" is recorded with
the first frame after the source is opened, and an error when a frame cannot be
inferred or encoded; a frame that can be records nothing. So after an error the
state is "running" again when the source has been lost and opened again, and
not before (`healthy_of_no_recovery`).
-/
import RetailVision.NativeHealth

set_option linter.all false

namespace RetailVision.NativeRuntime

open Lib

variable {maxBatch : Nat} {s t : State} {a : Action} {h c : Nat}

/-! ## What a step of the runtime leaves alone -/

/-- The control thread changes a stream's `removing`, or adds a stream. -/
theorem stepControl_heap (hs : stepControl s a = some t) :
    (∀ h, ∃ b, t.heap h = { s.heap h with removing := b }) ∨ ∃ i, a = .add i ∧ s.find i = none ∧ t = s.addStream i := by
  have hsame : ∀ {heap : Nat → Stream}, heap = s.heap → ∀ h, ∃ b, heap h = { s.heap h with removing := b } := by
    intro heap he h
    exact ⟨(s.heap h).removing, by rw [he]⟩
  have hflag : ∀ (k : Nat) (b : Bool) h, ∃ b', (s.modify k fun st => { st with removing := b }).heap h = { s.heap h with removing := b' } := by
    intro k b h
    by_cases hk : h = k
    · subst hk
      exact ⟨b, modify_heap_self⟩
    · exact ⟨(s.heap h).removing, by rw [modify_heap_ne hk]⟩
  cases a <;> simp only [stepControl] at hs
  case add i =>
    split at hs
    · cases hf : s.find i with
      | some k =>
        rw [hf] at hs
        cases hs
        exact .inl (hsame rfl)
      | none =>
        rw [hf] at hs
        cases hs
        exact .inr ⟨i, rfl, hf, rfl⟩
    · cases hs
  case remove i =>
    split at hs
    · split at hs <;> cases hs <;> exact .inl (hsame rfl)
    · cases hs
  case setRemoving =>
    split at hs <;> cases hs
    exact .inl (hflag _ _)
  case takeBack =>
    split at hs <;> cases hs
    exact .inl (hflag _ _)
  case tryLock got =>
    split at hs
    · split at hs <;> cases hs <;> exact .inl (hsame rfl)
    · cases hs
  case stop =>
    split at hs <;> cases hs
    refine .inl fun h => ?_
    simp only [State.stop]
    split
    · exact ⟨true, rfl⟩
    · exact ⟨(s.heap h).removing, rfl⟩
  case join =>
    split at hs
    · split at hs <;> cases hs
      exact .inl (hsame rfl)
    · cases hs
  all_goals
    first
      | (split at hs <;> cases hs; exact .inl (hsame rfl))
      | cases hs

theorem stepControl_streams (hs : stepControl s a = some t) (hadd : ∀ i, a = .add i → h ≠ s.next) (hm : h ∈ t.streams) :
    h ∈ s.streams := by
  cases a <;> simp only [stepControl] at hs
  case add i =>
    split at hs
    · split at hs <;> cases hs
      · exact hm
      · exact (addStream_streams.mp hm).resolve_left (hadd i rfl)
    · cases hs
  case remove i =>
    split at hs
    · split at hs <;> cases hs <;> exact hm
    · cases hs
  case detach =>
    split at hs <;> cases hs
    exact List.mem_of_mem_erase hm
  case tryLock got =>
    split at hs
    · split at hs <;> cases hs <;> exact hm
    · cases hs
  case join =>
    split at hs
    · split at hs <;> cases hs
      exact hm
    · cases hs
  all_goals
    first
      | (split at hs <;> cases hs; exact hm)
      | cases hs

/-- A stream is registered by an `add` and by nothing else. -/
theorem step_streams (hs : step maxBatch s a = some t) (hadd : ∀ i, a = .add i → h ≠ s.next) (hm : h ∈ t.streams) : h ∈ s.streams := by
  obtain hs | hs | hs := step_view hs
  · exact stepControl_streams hs hadd hm
  · rw [(stepSource_frame hs).streams] at hm
    exact hm
  · rw [(stepContext_frame hs).streams] at hm
    exact hm

/-- What the source thread of a stream alone changes, once the stream is there. -/
structure SameSource (st st' : Stream) : Prop where
  gotFirstFrame : st'.gotFirstFrame = st.gotFirstFrame
  source : st'.source = st.source

theorem modify_sameSource (k : Nat) {f : Stream → Stream} (hf : ∀ st, SameSource st (f st)) :
    SameSource (s.heap h) ((s.modify k f).heap h) :=
  ⟨modify_keeps (·.gotFirstFrame) fun st => (hf st).gotFirstFrame, modify_keeps (·.source) fun st => (hf st).source⟩

theorem stepContext_sameSource (hs : stepContext maxBatch s a = some t) : SameSource (s.heap h) (t.heap h) := by
  obtain ⟨c, hmove⟩ := stepContext_move hs
  generalize s.event a = o at hmove
  cases hmove with
  | looks ctx heap => rw [heap]; exact ⟨rfl, rfl⟩
  | takes k f todo batch _ _ _ _ heap => rw [heap]; refine modify_sameSource k ?_; exact fun _ => ⟨rfl, rfl⟩
  | enters k f todo claimed _ heap => rw [heap]; refine modify_sameSource k ?_; exact fun _ => ⟨rfl, rfl⟩
  | leaves k todo claimed _ heap => rw [heap]; refine modify_sameSource k ?_; exact fun _ => ⟨rfl, rfl⟩
  | releases k claimed _ heap => rw [heap]; refine modify_sameSource k ?_; exact fun _ => ⟨rfl, rfl⟩

theorem stepSource_sameSource (hs : stepSource s a = some t) (hsrc : ¬ a.OfSource h) : SameSource (s.heap h) (t.heap h) := by
  have hne : ∀ {k : Nat} {f : Stream → Stream}, h ≠ k → SameSource (s.heap h) ((s.modify k f).heap h) := by
    intro k f hk
    rw [modify_heap_ne hk]
    exact ⟨rfl, rfl⟩
  cases a <;> simp only [stepSource] at hs
  case sample k =>
    have hk : h ≠ k := fun he => hsrc he.symm
    split at hs
    all_goals cases hs
    all_goals
      simp only [State.sample]
      split
      · exact hne hk
      · split
        · exact hne hk
        · exact hne hk
  case readFrame k =>
    split at hs <;> cases hs
    rw [putFrame_heap_ne fun he => hsrc he.symm]
    exact ⟨rfl, rfl⟩
  case readNothing k =>
    split at hs <;> cases hs
    exact hne fun he => hsrc he.symm
  case readFails k =>
    split at hs <;> cases hs
    exact hne fun he => hsrc he.symm
  case reopen k ok =>
    split at hs <;> cases hs
    exact hne fun he => hsrc he.symm
  all_goals cases hs

theorem step_sameSource (hs : step maxBatch s a = some t) (hsrc : ¬ a.OfSource h) (hadd : ∀ i, a = .add i → h ≠ s.next) :
    SameSource (s.heap h) (t.heap h) := by
  obtain hs | hs | hs := step_view hs
  · obtain hflag | ⟨i, rfl, -, rfl⟩ := stepControl_heap hs
    · obtain ⟨b, hb⟩ := hflag h
      rw [hb]
      exact ⟨rfl, rfl⟩
    · rw [show (s.addStream i).heap h = s.heap h from Function.update_of_ne (hadd i rfl) ..]
      exact ⟨rfl, rfl⟩
  · exact stepSource_sameSource hs hsrc
  · exact stepContext_sameSource hs

theorem stepContext_processes (hs : stepContext maxBatch s a = some t) (hp : (s.contexts c).processes = some h) (ha : a ≠ .endFrame c) :
    (t.contexts c).processes = some h := by
  have hupdate : ∀ {d : Nat} {ctx : Context}, (d = c → ctx.processes = some h) →
      (Function.update s.contexts d ctx c).processes = some h := by
    intro d ctx hctx
    by_cases hd : c = d
    · subst hd
      rw [Function.update_self]
      exact hctx rfl
    · rw [Function.update_of_ne hd]
      exact hp
  have hno : ∀ {d : Nat} {ctx : Context}, s.contexts d = ctx → ctx.processes = none → d ≠ c := by
    intro d ctx hd hnone he
    rw [he] at hd
    rw [hd, hnone] at hp
    cases hp
  cases a <;> simp only [stepContext] at hs
  case snapshot d =>
    split at hs <;> cases hs
    next hd _ => exact hupdate fun he => absurd he (hno hd rfl)
  case claim d got =>
    split at hs
    · next hd =>
      split at hs <;> cases hs
      have hne : c ≠ d := Ne.symm (hno hd rfl)
      simp only [State.claim]
      split
      · split
        · exact hupdate fun he => absurd he.symm hne
        · exact hupdate fun he => absurd he.symm hne
      · exact hupdate fun he => absurd he.symm hne
    · cases hs
  case endClaims d =>
    split at hs
    · next hd =>
      split at hs <;> cases hs
      exact hupdate fun he => absurd he (hno hd rfl)
    · cases hs
  case checkRemoving d =>
    split at hs <;> cases hs
    · next hd => exact hupdate fun he => absurd he (hno hd rfl)
    · next hd => exact hupdate fun he => absurd he (hno hd rfl)
  case enterFrame d =>
    split at hs
    · next k f todo claimed hd =>
      split at hs <;> cases hs
      refine hupdate fun he => ?_
      rw [← he, hd] at hp
      exact hp
    · cases hs
  case endFrame d =>
    split at hs <;> cases hs
    refine hupdate fun he => absurd (congrArg Action.endFrame he) ha
  case release d =>
    split at hs
    · next hd =>
      split at hs <;> cases hs
      exact hupdate fun he => absurd he (hno hd rfl)
    · next hd =>
      cases hs
      exact hupdate fun he => absurd he (hno hd rfl)
    · cases hs
  all_goals cases hs

/-- A context is in `process` until it returns. -/
theorem step_processes (hs : step maxBatch s a = some t) (hp : (s.contexts c).processes = some h) (ha : a ≠ .endFrame c) :
    (t.contexts c).processes = some h := by
  obtain hs | hs | hs := step_view hs
  · rw [(stepControl_slots hs).contexts]
    exact hp
  · rw [(stepSource_frame hs).contexts]
    exact hp
  · exact stepContext_processes hs hp ha

end RetailVision.NativeRuntime

namespace RetailVision.NativeHealth

open Lib
open NativeRuntime (Context Source SameSource step_sameSource step_processes step_streams newStream)

variable {maxBatch : Nat} {x x' : State × (Nat → Seen)} {s t : State} {g : Nat → Seen} {a : Action} {h k c : Nat}

/-- What holds of a stream, its source thread and its metrics. -/
structure Follows (x : State × (Nat → Seen)) (h : Nat) : Prop where
  hasFrame : x.1.hand h = .firstFrame ∨ x.1.hand h = .frame → (x.1.rt.heap h).source = .reading
  hasFailure : x.1.hand h = .failure → (x.1.rt.heap h).gotFirstFrame = false
  reported : h ∈ x.1.rt.streams → Delivering x.1 h → (x.2 h).errorSince = false → (x.1.metrics h).state = .running
  seen : (x.2 h).delivered = true → (x.2 h).readFailed = true ∨ Delivering x.1 h
  looping : (x.1.rt.heap h).source = .looping ∨ (x.1.rt.heap h).source = .reading → (x.2 h).delivered = true → Delivering x.1 h
  recovered : (x.2 h).lastFrame = some true → (∀ c, x.1.processes c ≠ some h) → Delivering x.1 h → (x.2 h).errorSince = false

/-- A stream that a step is not about. -/
theorem Follows.same (hf : Follows x h) (hsource : SameSource (x.1.rt.heap h) (x'.1.rt.heap h)) (hhand : x'.1.hand h = x.1.hand h)
    (hmetrics : (x'.1.metrics h) = x.1.metrics h) (hseen : x'.2 h = x.2 h) (hstreams : h ∈ x'.1.rt.streams → h ∈ x.1.rt.streams)
    (hprocesses : ∀ c, x.1.processes c = some h → x'.1.processes c = some h) : Follows x' h := by
  have hdelivering : Delivering x'.1 h ↔ Delivering x.1 h := by
    simp only [Delivering, hsource.gotFirstFrame, hhand]
  constructor
  case hasFrame => rw [hhand, hsource.source]; exact hf.hasFrame
  case hasFailure => rw [hhand, hsource.gotFirstFrame]; exact hf.hasFailure
  case reported =>
    intro hreg hd he
    rw [hmetrics]
    exact hf.reported (hstreams hreg) (hdelivering.mp hd) (hseen ▸ he)
  case seen => rw [hseen, hdelivering]; exact hf.seen
  case looping => rw [hsource.source, hseen, hdelivering]; exact hf.looping
  case recovered =>
    rw [hseen, hdelivering]
    exact fun hl hno => hf.recovered hl fun c hc => hno c (hprocesses c hc)

/-- A runtime that is as it should be, and streams that are. -/
structure Inv (x : State × (Nat → Seen)) : Prop where
  rt : NativeRuntime.Inv x.1.rt
  exclusive : NativeRuntime.Exclusive x.1.rt
  removal : NativeRuntime.Removal x.1.rt
  follows : ∀ h, Follows x h

theorem start_inv : Inv (start, fun _ => .nothing) where
  rt := NativeRuntime.start_inv
  exclusive := NativeRuntime.start_exclusive
  removal := .idle rfl
  follows h := by
    constructor
    case hasFrame => intro he; cases he with | inl he => cases he | inr he => cases he
    case hasFailure => intro he; cases he
    case reported => intro hreg; cases hreg
    case seen => intro hd; cases hd
    case looping => intro _ hd; cases hd
    case recovered => intro hl; cases hl

/-! ## The steps of the runtime -/

/-- A step of the runtime that is not about the stream `k`. -/
theorem Follows.rt_other (hf : Follows (s, g) k) {a : NativeRuntime.Action} {rt : NativeRuntime.State}
    (hs : NativeRuntime.step maxBatch s.rt a = some rt) (hsrc : ¬ a.OfSource k) (hadd : ∀ i, a = .add i → k ≠ s.rt.next)
    (hend : ∀ c, a = .endFrame c → s.processes c ≠ some k) : Follows (follow s a rt, note s (.rt a) g) k := by
  have hrt : (follow s a rt).rt = rt := by
    cases a <;> simp only [follow]
    · split <;> rfl
    all_goals rfl
  have hsee : ∀ {j : Nat} {f : Seen → Seen}, k ≠ j → see g j f k = g k := fun hk => Function.update_of_ne hk ..
  have hother : (follow s a rt).hand k = s.hand k ∧ (follow s a rt).metrics k = s.metrics k ∧ note s (.rt a) g k = g k := by
    cases a with
    | add i =>
      have hk := hadd i rfl
      simp only [follow, note]
      cases s.rt.find i with
      | some j => exact ⟨rfl, rfl, rfl⟩
      | none => exact ⟨Function.update_of_ne hk .., Function.update_of_ne hk .., hsee hk⟩
    | readFrame j =>
      have hk : k ≠ j := fun he => hsrc he.symm
      exact ⟨Function.update_of_ne hk .., rfl, Function.update_of_ne hk ..⟩
    | readNothing j =>
      have hk : k ≠ j := fun he => hsrc he.symm
      exact ⟨rfl, rfl, Function.update_of_ne hk ..⟩
    | readFails j =>
      have hk : k ≠ j := fun he => hsrc he.symm
      exact ⟨Function.update_of_ne hk .., rfl, Function.update_of_ne hk ..⟩
    | reopen j ok =>
      cases ok with
      | false => exact ⟨rfl, rfl, rfl⟩
      | true =>
        have hk : k ≠ j := fun he => hsrc he.symm
        exact ⟨rfl, rfl, Function.update_of_ne hk ..⟩
    | endFrame c =>
      refine ⟨rfl, rfl, ?_⟩
      simp only [note]
      cases hj : s.processes c with
      | none => rfl
      | some j =>
        cases s.work c with
        | ended ok => exact hsee fun he => hend c rfl (he ▸ hj)
        | _ => rfl
    | _ => exact ⟨rfl, rfl, rfl⟩
  obtain ⟨hhand, hmetrics, hseen⟩ := hother
  refine hf.same ?_ hhand hmetrics hseen ?_ ?_
  · rw [hrt]
    exact step_sameSource hs hsrc hadd
  · rw [hrt]
    exact step_streams hs hadd
  · intro c hc
    simp only [State.processes, hrt] at hc ⊢
    exact step_processes hs hc fun he => hend c he hc

/-- A step of the stream's own source thread, which neither records a state nor starts to deliver. -/
theorem Follows.moved (hf : Follows x k) (hmetrics : x'.1.metrics k = x.1.metrics k) (hstreams : k ∈ x'.1.rt.streams → k ∈ x.1.rt.streams)
    (hcontexts : x'.1.rt.contexts = x.1.rt.contexts) (hlast : (x'.2 k).lastFrame = (x.2 k).lastFrame)
    (herror : (x'.2 k).errorSince = (x.2 k).errorSince) (hdelivering : Delivering x'.1 k → Delivering x.1 k)
    (hasFrame : x'.1.hand k = .firstFrame ∨ x'.1.hand k = .frame → (x'.1.rt.heap k).source = .reading)
    (hasFailure : x'.1.hand k = .failure → (x'.1.rt.heap k).gotFirstFrame = false)
    (seen : (x'.2 k).delivered = true → (x'.2 k).readFailed = true ∨ Delivering x'.1 k)
    (looping : (x'.1.rt.heap k).source = .looping ∨ (x'.1.rt.heap k).source = .reading → (x'.2 k).delivered = true → Delivering x'.1 k) :
    Follows x' k where
  hasFrame := hasFrame
  hasFailure := hasFailure
  seen := seen
  looping := looping
  reported := by
    intro hreg hd he
    rw [hmetrics]
    exact hf.reported (hstreams hreg) (hdelivering hd) (herror ▸ he)
  recovered := by
    intro hl hno hd
    rw [herror]
    refine hf.recovered (hlast ▸ hl) (fun c hc => hno c ?_) (hdelivering hd)
    simp only [State.processes, hcontexts] at hc ⊢
    exact hc

theorem Follows.sample (hf : Follows (s, g) k) {rt : NativeRuntime.State} (hready : s.hand k = .nothing)
    (hs : NativeRuntime.step maxBatch s.rt (.sample k) = some rt) :
    Follows (follow s (.sample k) rt, note s (.rt (.sample k)) g) k := by
  obtain ⟨src, rfl, hsrc⟩ : ∃ src, rt = s.rt.setSource k src ∧ (src = .looping ∨ src = .reading → (s.rt.heap k).source = .looping) := by
    simp only [NativeRuntime.step, NativeRuntime.stepSource] at hs
    split at hs
    · next hl =>
      cases hs
      simp only [NativeRuntime.State.sample]
      split
      · exact ⟨_, rfl, fun _ => hl⟩
      · split <;> exact ⟨_, rfl, fun _ => hl⟩
    · cases hs
      simp only [NativeRuntime.State.sample]
      split
      · exact ⟨_, rfl, fun he => by cases he with | inl he => cases he | inr he => cases he⟩
      · split
        · exact ⟨_, rfl, fun he => by cases he with | inl he => cases he | inr he => cases he⟩
        · exact ⟨_, rfl, fun he => by cases he with | inl he => cases he | inr he => cases he⟩
    · cases hs
  have hgot : ((s.rt.setSource k src).heap k).gotFirstFrame = (s.rt.heap k).gotFirstFrame := by
    simp [NativeRuntime.State.setSource, NativeRuntime.modify_heap_self]
  have hsource : ((s.rt.setSource k src).heap k).source = src := by
    simp [NativeRuntime.State.setSource, NativeRuntime.modify_heap_self]
  have hdelivering : Delivering (follow s (.sample k) (s.rt.setSource k src)) k ↔ Delivering s k := by
    simp only [Delivering, follow, hgot]
  refine hf.moved rfl id rfl rfl rfl hdelivering.mp ?_ ?_ ?_ ?_
  · intro he
    simp only [follow, hready] at he
    cases he with | inl he => cases he | inr he => cases he
  · intro he
    simp only [follow, hready] at he
    cases he
  · exact fun hd => (hf.seen hd).imp_right hdelivering.mpr
  · intro he hd
    simp only [follow, hsource] at he
    exact hdelivering.mpr (hf.looping (.inl (hsrc he)) hd)

/-- A stream that is there from now on. -/
theorem Follows.added {i : Nat} (hf : s.rt.find i = none) : Follows (follow s (.add i) (s.rt.addStream i), note s (.rt (.add i)) g) s.rt.next := by
  have hheap : (s.rt.addStream i).heap s.rt.next = newStream i := Function.update_self ..
  have hseen : note s (.rt (.add i)) g s.rt.next = .nothing := by
    simp only [note, hf]
    exact Function.update_self ..
  have hhand : (follow s (.add i) (s.rt.addStream i)).hand s.rt.next = .nothing := by
    simp only [follow, hf]
    exact Function.update_self ..
  have hrt : (follow s (.add i) (s.rt.addStream i)).rt = s.rt.addStream i := by
    simp only [follow, hf]
    rfl
  constructor
  case hasFrame => rw [hhand]; intro he; cases he with | inl he => cases he | inr he => cases he
  case hasFailure => rw [hhand]; intro he; cases he
  case reported =>
    intro _ hd
    simp only [Delivering, hhand, hrt, hheap] at hd
    cases hd with | inl hd => cases hd | inr hd => cases hd
  case seen => simp only [hseen]; intro hd; cases hd
  case looping => simp only [hseen]; intro _ hd; cases hd
  case recovered => simp only [hseen]; intro hl; cases hl

/-- The frame in hand is put into the slot. -/
theorem Follows.readFrame (hf : Follows (s, g) k) (hready : s.hand k = .frame) :
    Follows (follow s (.readFrame k) (s.rt.putFrame k), note s (.rt (.readFrame k)) g) k := by
  have hheap := @NativeRuntime.putFrame_heap_self s.rt k
  have hseen : note s (.rt (.readFrame k)) g k = { g k with delivered := true } := Function.update_self ..
  have hhand : (follow s (.readFrame k) (s.rt.putFrame k)).hand k = .nothing := Function.update_self ..
  have hdelivering : Delivering (follow s (.readFrame k) (s.rt.putFrame k)) k := by
    refine .inl ?_
    simp only [follow, State.setHand, hheap]
  refine hf.moved rfl id rfl ?_ ?_ (fun _ => .inr hready) ?_ ?_ (fun _ => .inr hdelivering) fun _ _ => hdelivering
  · simp only [hseen]
  · simp only [hseen]
  · simp only [hhand]
    intro he
    cases he with | inl he => cases he | inr he => cases he
  · simp only [hhand]
    intro he
    cases he

theorem Follows.readNothing (hf : Follows (s, g) k) (hready : s.hand k = .nothing) (hsource : (s.rt.heap k).source = .reading) :
    Follows (follow s (.readNothing k) (s.rt.setSource k .looping), note s (.rt (.readNothing k)) g) k := by
  have hheap : (s.rt.setSource k .looping).heap k = { s.rt.heap k with source := .looping } := NativeRuntime.modify_heap_self
  have hseen : note s (.rt (.readNothing k)) g k = { g k with readFailed := false } := Function.update_self ..
  have hdelivering : Delivering (follow s (.readNothing k) (s.rt.setSource k .looping)) k ↔ Delivering s k := by
    simp only [Delivering, follow, hheap]
  have hlooping : (g k).delivered = true → Delivering s k := hf.looping (.inr hsource)
  refine hf.moved rfl id rfl ?_ ?_ hdelivering.mp ?_ ?_ ?_ ?_
  · simp only [hseen]
  · simp only [hseen]
  · simp only [follow, hready]
    intro he
    cases he with | inl he => cases he | inr he => cases he
  · simp only [follow, hready]
    intro he
    cases he
  · simp only [hseen]
    exact fun hd => .inr (hdelivering.mpr (hlooping hd))
  · simp only [hseen]
    exact fun _ hd => hdelivering.mpr (hlooping hd)

/-- The source is lost. -/
theorem Follows.readFails (hf : Follows (s, g) k) {rt : NativeRuntime.State}
    (hrt : rt = s.rt.modify k fun st => { st with source := .reconnecting, gotFirstFrame := false }) :
    Follows (follow s (.readFails k) rt, note s (.rt (.readFails k)) g) k := by
  have hheap : rt.heap k = { s.rt.heap k with source := .reconnecting, gotFirstFrame := false } := by
    rw [hrt]
    exact NativeRuntime.modify_heap_self
  have hseen : note s (.rt (.readFails k)) g k = { g k with readFailed := true } := Function.update_self ..
  have hhand : (follow s (.readFails k) rt).hand k = .failure := Function.update_self ..
  have hgot : ((follow s (.readFails k) rt).rt.heap k).gotFirstFrame = false := by
    simp only [follow, State.setHand, hheap]
  refine hf.moved rfl (fun hm => ?_) ?_ ?_ ?_ (fun hd => ?_) ?_ (fun _ => hgot) (fun _ => .inl ?_) ?_
  · simp only [follow, hrt, State.setHand] at hm
    exact hm
  · simp only [follow, hrt, State.setHand, NativeRuntime.modify_contexts]
  · simp only [hseen]
  · simp only [hseen]
  · simp only [Delivering, hgot, hhand] at hd
    cases hd with | inl hd => cases hd | inr hd => cases hd
  · simp only [hhand]
    intro he
    cases he with | inl he => cases he | inr he => cases he
  · simp only [hseen]
  · simp only [follow, State.setHand, hheap]
    intro he
    cases he with | inl he => cases he | inr he => cases he

/-- The source is opened again, or is not. -/
theorem Follows.reopen (hf : Follows (s, g) k) (hsource : (s.rt.heap k).source = .opening) (ok : Bool) :
    Follows (follow s (.reopen k ok) (s.rt.setSource k (if ok then .looping else .reconnecting)), note s (.rt (.reopen k ok)) g) k := by
  have hheap : (s.rt.setSource k (if ok then .looping else .reconnecting)).heap k =
      { s.rt.heap k with source := if ok then .looping else .reconnecting } := NativeRuntime.modify_heap_self
  have hdelivering : Delivering (follow s (.reopen k ok) (s.rt.setSource k (if ok then .looping else .reconnecting))) k ↔ Delivering s k := by
    simp only [Delivering, follow, hheap]
  have hseen : note s (.rt (.reopen k ok)) g k = { g k with delivered := (g k).delivered && !ok } := by
    cases ok with
    | false => simp [note]
    | true => exact (Function.update_self ..).trans (by simp)
  refine hf.moved rfl id rfl ?_ ?_ hdelivering.mp (fun he => ?_) (fun he => ?_) ?_ ?_
  · simp only [hseen]
  · simp only [hseen]
  · have hreading := hf.hasFrame he
    simp only [hsource] at hreading
    cases hreading
  · simp only [follow, hheap]
    exact hf.hasFailure he
  · simp only [hseen, hdelivering, Bool.and_eq_true]
    exact fun hd => hf.seen hd.1
  · simp only [hseen, follow, hheap]
    cases ok with
    | false => intro he; cases he with | inl he => cases he | inr he => cases he
    | true => simp

/-- A frame of the stream ends. -/
theorem Follows.ended (hf : Follows (s, g) k) {rt : NativeRuntime.State} (hready : ready s (.endFrame c) = true)
    (hs : NativeRuntime.step maxBatch s.rt (.endFrame c) = some rt) (hc : s.processes c = some k)
    (hr : recovers (s, g) (.rt (.endFrame c)) = false) : Follows (follow s (.endFrame c) rt, note s (.rt (.endFrame c)) g) k := by
  obtain ⟨ok, hwork⟩ : ∃ ok, s.work c = .ended ok := by
    simp only [ready] at hready
    split at hready
    · next ok hok => exact ⟨ok, hok⟩
    · cases hready
  have hsame : SameSource (s.rt.heap k) (rt.heap k) := step_sameSource hs (fun h => h) fun i he => by cases he
  have hdelivering : Delivering (follow s (.endFrame c) rt) k ↔ Delivering s k := by
    simp only [Delivering, follow, hsame.gotFirstFrame]
  have hseen : note s (.rt (.endFrame c)) g k = { g k with lastFrame := some ok } := by
    simp only [note, hc, hwork]
    exact Function.update_self ..
  constructor
  case hasFrame => simp only [follow, hsame.source]; exact hf.hasFrame
  case hasFailure => simp only [follow, hsame.gotFirstFrame]; exact hf.hasFailure
  case reported =>
    simp only [hseen, hdelivering]
    exact fun hm => hf.reported (step_streams hs (fun i he => by cases he) hm)
  case seen => simp only [hseen, hdelivering]; exact hf.seen
  case looping =>
    simp only [hseen, hdelivering]
    intro hl
    simp only [follow, hsame.source] at hl
    exact hf.looping hl
  case recovered =>
    simp only [hseen, hdelivering]
    intro hl _ hd
    cases hl
    simp only [recovers, hc, hwork, decide_eq_false_iff_not] at hr
    simpa [hd] using hr

/-- A step of the source thread of the stream. -/
theorem Follows.source (hf : Follows (s, g) k) {a : NativeRuntime.Action} {rt : NativeRuntime.State} (hsrc : a.OfSource k)
    (hready : ready s a = true) (hs : NativeRuntime.step maxBatch s.rt a = some rt) : Follows (follow s a rt, note s (.rt a) g) k := by
  cases a <;> simp only [NativeRuntime.Action.OfSource] at hsrc
  case sample j =>
    subst hsrc
    exact hf.sample (of_decide_eq_true hready) hs
  case readFrame j =>
    subst hsrc
    simp only [NativeRuntime.step, NativeRuntime.stepSource] at hs
    split at hs <;> cases hs
    exact hf.readFrame (of_decide_eq_true hready)
  case readNothing j =>
    subst hsrc
    simp only [NativeRuntime.step, NativeRuntime.stepSource] at hs
    split at hs <;> cases hs
    next hsource => exact hf.readNothing (of_decide_eq_true hready) hsource
  case readFails j =>
    subst hsrc
    simp only [NativeRuntime.step, NativeRuntime.stepSource] at hs
    split at hs <;> cases hs
    exact hf.readFails rfl
  case reopen j ok =>
    subst hsrc
    simp only [NativeRuntime.step, NativeRuntime.stepSource] at hs
    split at hs <;> cases hs
    next hsource => exact hf.reopen hsource ok

theorem Inv.rt_step (hi : Inv (s, g)) {a : NativeRuntime.Action} {rt : NativeRuntime.State} (hr : recovers (s, g) (.rt a) = false)
    (hready : ready s a = true) (hs : NativeRuntime.step maxBatch s.rt a = some rt) (k : Nat) :
    Follows (follow s a rt, note s (.rt a) g) k := by
  have hf := hi.follows k
  by_cases hsrc : a.OfSource k
  · exact hf.source hsrc hready hs
  by_cases hend : ∃ c, a = .endFrame c ∧ s.processes c = some k
  · obtain ⟨c, rfl, hc⟩ := hend
    exact hf.ended hready hs hc hr
  by_cases hadd : ∃ i, a = .add i ∧ k = s.rt.next
  · obtain ⟨i, rfl, rfl⟩ := hadd
    simp only [NativeRuntime.step, NativeRuntime.stepControl] at hs
    split at hs
    · cases hfind : s.rt.find i with
      | none =>
        rw [hfind] at hs
        cases hs
        exact .added hfind
      | some j =>
        rw [hfind] at hs
        cases hs
        simp only [follow, note, hfind]
        exact hf.same ⟨rfl, rfl⟩ rfl rfl rfl id fun _ hc => hc
    · cases hs
  · exact hf.rt_other hs hsrc (fun i he hk => hadd ⟨i, he, hk⟩) fun c he hc => hend ⟨c, he, hc⟩

/-! ## The steps of the threads' own -/

/-- A step that writes nothing about the stream `k`. -/
theorem Follows.own_other (hf : Follows (s, g) k) {t : State} {g' : Nat → Seen} (hrt : t.rt = s.rt) (hhand : t.hand k = s.hand k)
    (hmetrics : t.metrics k = s.metrics k) (hseen : g' k = g k) : Follows (t, g') k := by
  refine hf.same ?_ hhand hmetrics hseen ?_ ?_
  · rw [hrt]
    exact ⟨rfl, rfl⟩
  · rw [hrt]
    exact id
  · intro c hc
    simp only [State.processes, hrt] at hc ⊢
    exact hc

theorem Follows.frameRead (hf : Follows (s, g) k) (hsource : (s.rt.heap k).source = .reading) (hhand : s.hand k = .nothing) :
    Follows (s.setHand k (if (s.rt.heap k).gotFirstFrame then .frame else .firstFrame), note s (.frameRead k) g) k := by
  generalize hnext : (if (s.rt.heap k).gotFirstFrame then Hand.frame else Hand.firstFrame) = next
  have hhand' : (s.setHand k next).hand k = next := Function.update_self ..
  have hseen : note s (.frameRead k) g k = { g k with readFailed := false } := Function.update_self ..
  have hdelivering : Delivering (s.setHand k next) k ↔ Delivering s k := by
    simp only [Delivering, hhand', hhand]
    subst hnext
    cases hgot : (s.rt.heap k).gotFirstFrame <;> simp [State.setHand, hgot]
  have hlooping : (g k).delivered = true → Delivering s k := hf.looping (.inr hsource)
  refine hf.moved rfl id rfl ?_ ?_ hdelivering.mp (fun _ => hsource) (fun he => ?_) ?_ ?_
  · simp only [hseen]
  · simp only [hseen]
  · simp only [hhand'] at he
    subst hnext
    split at he <;> cases he
  · simp only [hseen, hdelivering]
    exact fun hd => .inr (hlooping hd)
  · simp only [hseen, hdelivering]
    exact fun _ => hlooping

theorem Follows.recordRunning (hf : Follows (s, g) k) (hhand : s.hand k = .firstFrame) :
    Follows ((s.recordState k .running "").setHand k .frame, note s (.recordRunning k) g) k := by
  have hhand' : ((s.recordState k .running "").setHand k .frame).hand k = .frame := Function.update_self ..
  have hseen : note s (.recordRunning k) g k = { g k with errorSince := false } := Function.update_self ..
  have hmetrics : ((s.recordState k .running "").setHand k .frame).metrics k = ⟨.running, ""⟩ := Function.update_self ..
  have hdelivering : Delivering ((s.recordState k .running "").setHand k .frame) k := .inr hhand'
  constructor
  case hasFrame => exact fun _ => hf.hasFrame (.inl hhand)
  case hasFailure => simp only [hhand']; intro he; cases he
  case reported => intros; simp only [hmetrics]
  case seen => exact fun _ => .inr hdelivering
  case looping => exact fun _ _ => hdelivering
  case recovered => intros; simp only [hseen]

theorem Follows.recordReconnecting (hf : Follows (s, g) k) (hhand : s.hand k = .failure) :
    Follows ((s.recordState k .reconnecting "read failed").setHand k .nothing, g) k := by
  have hhand' : ((s.recordState k .reconnecting "read failed").setHand k .nothing).hand k = .nothing := Function.update_self ..
  have hgot : (s.rt.heap k).gotFirstFrame = false := hf.hasFailure hhand
  have hdelivering : ¬ Delivering ((s.recordState k .reconnecting "read failed").setHand k .nothing) k := by
    simp [Delivering, State.setHand, State.recordState, hgot]
  have hnot : ¬ Delivering s k := by simp [Delivering, hhand, hgot]
  constructor
  case hasFrame => simp only [hhand']; intro he; cases he with | inl he => cases he | inr he => cases he
  case hasFailure => simp only [hhand']; intro he; cases he
  case reported => exact fun _ hd => absurd hd hdelivering
  case seen => exact fun hd => .inl ((hf.seen hd).resolve_right hnot)
  case looping => exact fun he hd => absurd (hf.looping he hd) hnot
  case recovered => exact fun _ _ hd => absurd hd hdelivering

/-- An error of a frame in process. -/
theorem Follows.recordError (hf : Follows (s, g) k) (hc : s.processes c = some k) {err : String} {work : Work} {f : Seen → Seen}
    (he : f (g k) = { g k with errorSince := true }) : Follows ((s.recordState k .error err).setWork c work, see g k f) k := by
  have hseen : see g k f k = { g k with errorSince := true } := (Function.update_self ..).trans he
  constructor
  case hasFrame => exact hf.hasFrame
  case hasFailure => exact hf.hasFailure
  case reported => simp only [hseen]; intro _ _ he; cases he
  case seen => simp only [hseen]; exact hf.seen
  case looping => simp only [hseen]; exact hf.looping
  case recovered => exact fun _ hno => absurd hc (hno c)

/-- "stopped" is recorded of a stream that is no longer registered. -/
theorem Follows.recordStopped (hf : Follows (s, g) k) (hreg : k ∉ s.rt.streams) :
    Follows ({ s.recordState k .stopped "" with stopRecorded := true }, g) k where
  hasFrame := hf.hasFrame
  hasFailure := hf.hasFailure
  reported hm := absurd hm hreg
  seen := hf.seen
  looping := hf.looping
  recovered := hf.recovered

/-! ## Every step, and every run -/

/-- A step whose good frames follow no error. -/
theorem step_follows (hi : Inv (s, g)) (hr : recovers (s, g) a = false) (hs : step maxBatch s a = some t) (k : Nat) :
    Follows (t, note s a g) k := by
  have hf := hi.follows k
  cases a <;> simp only [step] at hs
  case rt a =>
    split at hs
    · next hready =>
      obtain ⟨rt, hrt, rfl⟩ := Option.map_eq_some_iff.mp hs
      exact hi.rt_step hr hready hrt k
    · cases hs
  case frameRead h =>
    split at hs <;> cases hs
    next hg =>
    by_cases hk : k = h
    · subst hk
      exact hf.frameRead hg.1 hg.2
    · exact hf.own_other rfl (Function.update_of_ne hk ..) rfl (Function.update_of_ne hk ..)
  case recordRunning h =>
    split at hs <;> cases hs
    next hg =>
    by_cases hk : k = h
    · subst hk
      exact hf.recordRunning hg
    · exact hf.own_other rfl (Function.update_of_ne hk ..) (Function.update_of_ne hk ..) (Function.update_of_ne hk ..)
  case recordReconnecting h =>
    split at hs <;> cases hs
    next hg =>
    by_cases hk : k = h
    · subst hk
      exact hf.recordReconnecting hg
    · exact hf.own_other rfl (Function.update_of_ne hk ..) (Function.update_of_ne hk ..) rfl
  case infer c err =>
    split at hs
    · split at hs <;> cases hs
      · exact hf.own_other rfl rfl rfl rfl
      · exact hf.own_other rfl rfl rfl rfl
    · cases hs
  case recordInferError c =>
    split at hs <;> cases hs
    next h err hc _ =>
    simp only [note, hc]
    by_cases hk : k = h
    · subst hk
      exact hf.recordError hc rfl
    · exact hf.own_other rfl rfl (Function.update_of_ne hk ..) (Function.update_of_ne hk ..)
  case encode c err =>
    split at hs
    · split at hs <;> cases hs
      · exact hf.own_other rfl rfl rfl rfl
      · exact hf.own_other rfl rfl rfl rfl
    · cases hs
  case recordEncodeError c =>
    split at hs <;> cases hs
    next h err hc _ =>
    simp only [note, hc]
    by_cases hk : k = h
    · subst hk
      exact hf.recordError hc rfl
    · exact hf.own_other rfl rfl (Function.update_of_ne hk ..) (Function.update_of_ne hk ..)
  case recordStopped =>
    split at hs
    · next h hc =>
      split at hs <;> cases hs
      by_cases hk : k = h
      · subst hk
        exact hf.recordStopped (hi.removal.detached k (by rw [hc]; rfl))
      · exact hf.own_other rfl rfl (Function.update_of_ne hk ..) rfl
    · cases hs

/-- What the threads write is beside the runtime. -/
theorem step_rt (hs : step maxBatch s a = some t) : t.rt = s.rt ∨ ∃ a, NativeRuntime.step maxBatch s.rt a = some t.rt := by
  cases a <;> simp only [step] at hs
  case rt a =>
    split at hs
    · obtain ⟨rt, hrt, rfl⟩ := Option.map_eq_some_iff.mp hs
      refine .inr ⟨a, hrt.trans ?_⟩
      cases a <;> simp only [follow]
      · split <;> rfl
      all_goals rfl
    · cases hs
  case frameRead => split at hs <;> cases hs; exact .inl rfl
  case recordRunning => split at hs <;> cases hs; exact .inl rfl
  case recordReconnecting => split at hs <;> cases hs; exact .inl rfl
  case infer =>
    split at hs
    · split at hs <;> cases hs <;> exact .inl rfl
    · cases hs
  case recordInferError => split at hs <;> cases hs; exact .inl rfl
  case encode =>
    split at hs
    · split at hs <;> cases hs <;> exact .inl rfl
    · cases hs
  case recordEncodeError => split at hs <;> cases hs; exact .inl rfl
  case recordStopped =>
    split at hs
    · split at hs <;> cases hs
      exact .inl rfl
    · cases hs

theorem step_inv (x : State × (Nat → Seen)) (a : Action) (x' : State × (Nat → Seen)) (hr : recovers x a = false) (hi : Inv x)
    (hs : traced (step maxBatch) note x a = some x') : Inv x' := by
  obtain ⟨s, g⟩ := x
  obtain ⟨t, g'⟩ := x'
  obtain ⟨hst, rfl⟩ := traced_eq_some.mp hs
  have hfollows := step_follows hi hr hst
  obtain hrt | ⟨b, hb⟩ := step_rt hst
  · exact ⟨hrt ▸ hi.rt, hrt ▸ hi.exclusive, hrt ▸ hi.removal, hfollows⟩
  · exact ⟨NativeRuntime.step_inv hi.rt hb, NativeRuntime.step_exclusive hi.rt hi.exclusive hb,
      NativeRuntime.step_removal hi.rt hi.exclusive hi.removal hb, hfollows⟩

/-- **The state that is reported of a stream that runs is "running"**, in every
run where no good frame follows another frame's error before the source is
lost and opened again. -/
theorem healthy_of_no_recovery {as : List Action}
    (hm : Meets (traced (step maxBatch) note) (fun x a => recovers x a = false) (start, fun _ => .nothing) as)
    (hr : run (traced (step maxBatch) note) (start, fun _ => .nothing) as = some (s, g)) (hruns : Runs s g h) :
    (s.metrics h).state = .running := by
  have hi : Inv (s, g) := run_invariant step_inv hm start_inv hr
  have hf := hi.follows h
  have hdelivering : Delivering s h := by
    obtain he | hd := hf.seen hruns.delivered
    · rw [hruns.noFailure] at he
      cases he
    · exact hd
  exact hf.reported hruns.registered hdelivering (hf.recovered hruns.good hruns.noFrame hdelivering)

/-- A stream is added, and its first frame read. -/
def firstFrame : List Action :=
  [.rt (.add 0), .rt (.sample 0), .frameRead 0, .recordRunning 0, .rt (.readFrame 0)]

/-- The frame in the slot is processed. -/
def processed (work : List Action) : List Action :=
  ([.rt (.snapshot 0), .rt (.claim 0 true), .rt (.endClaims 0), .rt (.checkRemoving 0), .rt (.enterFrame 0)] : List Action) ++ work ++
    ([.rt (.endFrame 0), .rt (.checkRemoving 0), .rt (.release 0), .rt (.release 0)] : List Action)

def inferFails : List Action := [.infer 0 (some "inference failed"), .recordInferError 0]

def good : List Action := [.infer 0 none, .encode 0 none]

def nextFrame : List Action := [.rt (.sample 0), .frameRead 0, .rt (.readFrame 0)]

/-- The source is lost and opened again. -/
def reopened : List Action :=
  [.rt (.sample 0), .rt (.readFails 0), .recordReconnecting 0, .rt (.sample 0), .rt (.reopen 0 true), .rt (.sample 0), .frameRead 0,
    .recordRunning 0, .rt (.readFrame 0)]

theorem healthy_of_no_recovery_reopened : ∃ s g,
    run (traced (step 1) note) (start, fun _ => .nothing) (firstFrame ++ processed inferFails ++ reopened ++ processed good) = some (s, g) ∧
      Runs s g 0 ∧ (s.metrics 0).state = .running := by
  have hruns : ∀ {s g}, run (traced (step 1) note) (start, fun _ => .nothing)
      (firstFrame ++ processed inferFails ++ reopened ++ processed good) = some (s, g) → Runs s g 0 := by
    intro s g hr
    cases hr
    exact ⟨by decide, rfl, rfl, rfl, rfl, fun c => by cases c <;> (intro h; cases h)⟩
  have hm : Meets (traced (step 1) note) (fun x a => recovers x a = false) (start, fun _ => .nothing)
      (firstFrame ++ processed inferFails ++ reopened ++ processed good) := by decide
  exact ⟨_, _, rfl, hruns rfl, healthy_of_no_recovery hm rfl (hruns rfl)⟩

/-- After an error, frames that are good again leave the state at "error". -/
theorem not_healthy_after_error : ∃ s g,
    run (traced (step 1) note) (start, fun _ => .nothing) (firstFrame ++ processed inferFails ++ nextFrame ++ processed good) = some (s, g) ∧
      Runs s g 0 ∧ s.metrics 0 = ⟨.error, "inference failed"⟩ := by
  refine ⟨_, _, rfl, ?_, rfl⟩
  exact ⟨by decide, rfl, rfl, rfl, rfl, fun c => by cases c <;> (intro h; cases h)⟩

end RetailVision.NativeHealth
