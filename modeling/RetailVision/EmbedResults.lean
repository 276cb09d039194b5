/-
The results of an embedded runtime (`vision_base/embed.py`): one list of frames
and events between the reader of the runtime's connection and one consumer of
`results()`. Frames are bounded, and the oldest queued one makes room for a new
one; events are never dropped.

The parts of the code under `_cv` are one step each, and so are the ones between
two yields outside of it. Waiting is a turn of the loop that changes nothing:
what wakes it up decides nothing about what the next turn does.
-/
import RetailVision.Lib.Run
import Mathlib.Algebra.Order.Ring.Rat
import Mathlib.Data.List.Perm.Basic
import Mathlib.Algebra.Order.Ring.Int

set_option linter.all false

namespace RetailVision.Embed

open RetailVision.Lib

/-- A `FrameResult` or an `Event`: its `stream_id` and what else it holds. -/
structure Record (α : Type) where
  streamId : String
  body : α

/-- `self._ids.get(idx, res.stream_id)`, where `id` is what `_ids` has for the index. -/
def Record.named {α : Type} (r : Record α) (id : Option String) : Record α := { r with streamId := id.getD r.streamId }

inductive Item (F E : Type)
  | frame (res : Record F)
  | event (ev : Record E)

def Item.isFrame {F E : Type} : Item F E → Bool
  | frame _ => true
  | event _ => false

/-- The generator of `results()`, with its timeout and its deadline. -/
inductive Consumer (F E : Type)
  /-- none, or one that has ended or was given up -/
  | out
  /-- in the loop, under `_cv` or waiting for it -/
  | loop (timeout deadline : Option ℚ)
  /-- an item is taken and not yet yielded -/
  | inHand (item : Item F E) (timeout deadline : Option ℚ)
  | atYield (timeout deadline : Option ℚ)

/-- How a generator ends by itself. -/
inductive End
  | idle
  | gone
deriving DecidableEq

structure State (F E : Type) where
  queueSize : Int
  items : List (Item F E)
  frameCount : Int
  framesDropped : Nat
  exited : Bool
  /-- `time.monotonic()` -/
  now : ℚ
  consumer : Consumer F E
  -- what is seen from outside: what was put in, what was dropped, what came out
  received : List (Item F E)
  dropped : List (Item F E)
  yielded : List (Item F E)
  ended : List End

variable {F E : Type}

namespace State

def start (queueSize : Int) : State F E where
  queueSize := max 1 queueSize
  items := []
  frameCount := 0
  framesDropped := 0
  exited := false
  now := 0
  consumer := .out
  received := []
  dropped := []
  yielded := []
  ended := []

/-- The oldest frame is deleted from the list where it holds enough of them. -/
def makeRoom (s : State F E) : State F E :=
  if s.queueSize ≤ s.frameCount then
    match s.items.find? Item.isFrame with
    | some item =>
      { s with
        items := s.items.eraseP Item.isFrame
        framesDropped := s.framesDropped + 1
        frameCount := s.frameCount - 1
        dropped := s.dropped ++ [item] }
    | none => s
  else s

def push (s : State F E) (item : Item F E) : State F E :=
  { s with
    items := s.items ++ [item]
    frameCount := if item.isFrame then s.frameCount + 1 else s.frameCount
    received := s.received ++ [item] }

/-- The item that is taken and not yet yielded. -/
def inHand (s : State F E) : List (Item F E) :=
  match s.consumer with
  | .inHand item _ _ => [item]
  | _ => []

/-- What came in and was not dropped. -/
def kept (s : State F E) : List (Item F E) := s.yielded ++ s.inHand ++ s.items

end State

inductive Action (F E : Type)
  | onFrame (id : Option String) (res : Record F)
  | onEvent (id : Option String) (ev : Record E)
  /-- also what `stop` does -/
  | onExit
  /-- a generator is made, and asked for its first item -/
  | results (timeout : Option ℚ)
  /-- one turn of the loop, from its test to the wait or to its end -/
  | turn
  | yields
  /-- the generator is asked for the next item -/
  | next
  /-- the generator is given up -/
  | close
  | tick (d : ℚ)

def State.turn (s : State F E) (timeout deadline : Option ℚ) : State F E :=
  match s.items with
  | [] =>
    if s.exited then { s with consumer := .out, ended := s.ended ++ [.gone] }
    else
      match deadline with
      | some deadline => if deadline - s.now ≤ 0 then { s with consumer := .out, ended := s.ended ++ [.idle] } else s
      | none => s
  | item :: rest =>
    { s with
      items := rest
      frameCount := if item.isFrame then s.frameCount - 1 else s.frameCount
      consumer := .inHand item timeout (timeout.map (s.now + ·)) }

def step (s : State F E) : Action F E → Option (State F E)
  | .onFrame id res => some (s.makeRoom.push (.frame (res.named id)))
  | .onEvent id ev => some (s.push (.event (ev.named id)))
  | .onExit => some { s with exited := true }
  | .results timeout =>
    match s.consumer with
    | .out => some { s with consumer := .loop timeout (timeout.map (s.now + ·)) }
    | _ => none
  | .turn =>
    match s.consumer with
    | .loop timeout deadline => some (s.turn timeout deadline)
    | _ => none
  | .yields =>
    match s.consumer with
    | .inHand item timeout deadline => some { s with consumer := .atYield timeout deadline, yielded := s.yielded ++ [item] }
    | _ => none
  | .next =>
    match s.consumer with
    | .atYield timeout deadline => some { s with consumer := .loop timeout deadline }
    | _ => none
  | .close =>
    match s.consumer with
    | .atYield _ _ => some { s with consumer := .out }
    | _ => none
  | .tick d => if 0 ≤ d then some { s with now := s.now + d } else none

/-! ## The books -/

variable {s t : State F E} {a : Action F E} {as : List (Action F E)} {queueSize : Int} {item : Item F E}

/-- What the list, the counters and what went in and out have to do with each other. -/
structure Accounted (queueSize : Int) (s : State F E) : Prop where
  size : s.queueSize = queueSize
  count : s.frameCount = s.items.countP Item.isFrame
  bound : s.frameCount ≤ queueSize
  framesDropped : s.framesDropped = s.dropped.length
  dropped : ∀ item ∈ s.dropped, item.isFrame = true
  order : s.kept.Sublist s.received
  perm : s.received.Perm (s.kept ++ s.dropped)

/-- The oldest queued frame made room for a new one, the list being full of them. -/
def DropsOldest (s t : State F E) : Prop :=
  s.frameCount = s.queueSize ∧ ∃ older oldest younger res, s.items = older ++ .frame oldest :: younger ∧
    (∀ item ∈ older, item.isFrame = false) ∧ t.dropped = s.dropped ++ [.frame oldest] ∧
    t.items = older ++ younger ++ [.frame res]

theorem eraseP_of_append {α : Type} {p : α → Bool} {xs ys : List α} {x : α} (hxs : ∀ y ∈ xs, p y = false) (hx : p x = true) :
    (xs ++ x :: ys).eraseP p = xs ++ ys := by
  rw [List.eraseP_append_right _ (by simpa using hxs), List.eraseP_cons_of_pos hx]

theorem accounted_start (hq : 1 ≤ queueSize) : Accounted queueSize (State.start queueSize : State F E) where
  size := max_eq_right hq
  count := rfl
  bound := by show (0 : Int) ≤ queueSize; omega
  framesDropped := rfl
  dropped := fun _ h => by cases h
  order := List.Sublist.refl []
  perm := List.Perm.refl []

/-- A full list holds a frame, so one is dropped. -/
theorem makeRoom_cases (hi : Accounted queueSize s) (hq : 1 ≤ queueSize) :
    (s.frameCount < queueSize ∧ s.makeRoom = s) ∨
    (s.frameCount = queueSize ∧ ∃ older oldest younger, s.items = older ++ oldest :: younger ∧
      (∀ item ∈ older, item.isFrame = false) ∧ oldest.isFrame = true ∧
      s.makeRoom =
        { s with
          items := older ++ younger
          framesDropped := s.framesDropped + 1
          frameCount := s.frameCount - 1
          dropped := s.dropped ++ [oldest] }) := by
  have hbound := hi.bound
  rw [State.makeRoom, hi.size]
  split
  · next hfull =>
    have hcount : 0 < s.items.countP Item.isFrame := by
      have := hi.count
      omega
    obtain ⟨frame, hmem, hframe⟩ := List.countP_pos_iff.mp hcount
    cases hfind : s.items.find? Item.isFrame with
    | none => exact absurd hframe (List.find?_eq_none.mp hfind frame hmem)
    | some oldest =>
      obtain ⟨holdest, older, younger, hitems, holder⟩ := List.find?_eq_some_iff_append.mp hfind
      have holder' : ∀ item ∈ older, item.isFrame = false := fun item hitem => by simpa using holder item hitem
      refine .inr ⟨by omega, older, oldest, younger, hitems, holder', holdest, ?_⟩
      simp only [hitems, eraseP_of_append holder' holdest]
  · exact .inl ⟨by omega, rfl⟩

theorem Accounted.makeRoom (hi : Accounted queueSize s) (hq : 1 ≤ queueSize) :
    Accounted queueSize s.makeRoom ∧ s.makeRoom.frameCount < queueSize := by
  rcases makeRoom_cases hi hq with ⟨hlt, heq⟩ | ⟨hfull, older, oldest, younger, hitems, holder, holdest, heq⟩
  · rw [heq]
    exact ⟨hi, hlt⟩
  · have hcount := hi.count
    have hkept : s.kept = s.yielded ++ s.inHand ++ (older ++ oldest :: younger) := by rw [State.kept, hitems]
    rw [hitems, List.countP_append, List.countP_cons_of_pos holdest] at hcount
    rw [heq]
    have hlt : s.frameCount - 1 < queueSize := by omega
    refine ⟨⟨hi.size, ?_, hlt.le, ?_, ?_, ?_, ?_⟩, hlt⟩
    · show s.frameCount - 1 = _
      rw [List.countP_append]
      omega
    · show s.framesDropped + 1 = _
      rw [hi.framesDropped, List.length_append, List.length_singleton]
    · intro item hitem
      rcases List.mem_append.mp hitem with hitem | hitem
      · exact hi.dropped item hitem
      · rw [List.mem_singleton.mp hitem]
        exact holdest
    · have hsub : (s.yielded ++ s.inHand ++ (older ++ younger)).Sublist s.kept := by
        rw [hkept]
        exact (((List.sublist_cons_self oldest younger).append_left older)).append_left _
      exact hsub.trans hi.order
    · -- the one that is dropped goes from the middle of the list to the end
      have hmiddle : (s.kept ++ s.dropped).Perm (oldest :: (s.yielded ++ s.inHand ++ (older ++ younger) ++ s.dropped)) := by
        rw [hkept]
        simpa [List.append_assoc] using @List.perm_middle _ oldest (s.yielded ++ (s.inHand ++ older)) (younger ++ s.dropped)
      have hend := (List.perm_append_singleton oldest (s.yielded ++ s.inHand ++ (older ++ younger) ++ s.dropped)).symm
      have hperm := (hi.perm.trans hmiddle).trans hend
      rwa [List.append_assoc _ s.dropped] at hperm

theorem kept_push : (s.push item).kept = s.kept ++ [item] := (List.append_assoc _ _ _).symm

/-- An item is put in, for which there is room where it is a frame. -/
theorem Accounted.push (hi : Accounted queueSize s) (hroom : item.isFrame = true → s.frameCount < queueSize) :
    Accounted queueSize (s.push item) where
  size := hi.size
  count := by
    have := hi.count
    simp only [State.push, List.countP_append, List.countP_singleton]
    split <;> push_cast <;> omega
  bound := by
    have := hi.bound
    simp only [State.push]
    split
    · next hframe =>
      have := hroom hframe
      omega
    · omega
  framesDropped := hi.framesDropped
  dropped := hi.dropped
  order := by
    rw [kept_push]
    exact hi.order.append_right [item]
  perm := by
    have hend := (hi.perm.append_right [item]).trans (List.perm_append_singleton item _)
    rw [kept_push, List.append_assoc]
    exact hend.trans (List.perm_middle.symm)

/-- What came in and what was kept stay, and so do the drops. -/
theorem Accounted.of_kept (hi : Accounted queueSize s) (hsize : t.queueSize = s.queueSize) (hkept : t.kept = s.kept)
    (hreceived : t.received = s.received) (hdropped : t.dropped = s.dropped ∧ t.framesDropped = s.framesDropped)
    (hcount : t.frameCount = t.items.countP Item.isFrame) (hle : t.frameCount ≤ s.frameCount) : Accounted queueSize t where
  size := hsize.trans hi.size
  count := hcount
  bound := hle.trans hi.bound
  framesDropped := by rw [hdropped.1, hdropped.2, hi.framesDropped]
  dropped := by rw [hdropped.1]; exact hi.dropped
  order := by rw [hkept, hreceived]; exact hi.order
  perm := by rw [hkept, hreceived, hdropped.1]; exact hi.perm

theorem Accounted.turn {timeout deadline : Option ℚ} (hi : Accounted queueSize s) (hc : s.consumer = .loop timeout deadline) :
    Accounted queueSize (s.turn timeout deadline) := by
  have hhand : s.inHand = [] := by rw [State.inHand, hc]
  have hout : ∀ ended, Accounted queueSize { s with consumer := .out, ended := ended } := fun ended => by
    refine hi.of_kept rfl ?_ rfl ⟨rfl, rfl⟩ hi.count le_rfl
    rw [State.kept, State.kept, hhand]
    rfl
  unfold State.turn
  split
  · split
    · exact hout _
    · split
      · split
        · exact hout _
        · exact hi
      · exact hi
  · next item rest hitems =>
    have hcount := hi.count
    rw [hitems, List.countP_cons] at hcount
    refine hi.of_kept rfl ?_ rfl ⟨rfl, rfl⟩ ?_ ?_
    · rw [State.kept, State.kept, hhand, hitems]
      simp [State.inHand]
    · dsimp only
      split <;> simp_all
    · dsimp only
      split <;> omega

theorem accounted_step (hq : 1 ≤ queueSize) (hi : Accounted queueSize s) (h : step s a = some t) : Accounted queueSize t := by
  cases a with
  | onFrame id res =>
    cases h
    obtain ⟨hroom, hlt⟩ := hi.makeRoom hq
    exact hroom.push fun _ => hlt
  | onEvent id ev =>
    cases h
    exact hi.push fun hframe => by cases hframe
  | onExit =>
    cases h
    exact hi.of_kept rfl rfl rfl ⟨rfl, rfl⟩ hi.count le_rfl
  | turn =>
    simp only [step] at h
    split at h
    · next hc =>
      cases h
      exact hi.turn hc
    · cases h
  | tick d =>
    simp only [step] at h
    split at h
    · cases h
      exact hi.of_kept rfl rfl rfl ⟨rfl, rfl⟩ hi.count le_rfl
    · cases h
  | _ =>
    -- the consumer goes on, and an item in its hand is yielded
    simp only [step] at h
    split at h
    · next hc =>
      cases h
      refine hi.of_kept rfl ?_ rfl ⟨rfl, rfl⟩ hi.count le_rfl
      simp [State.kept, State.inHand, hc]
    · cases h

/-! ## What is lost, and when the runtime is gone -/

theorem makeRoom_ended : s.makeRoom.ended = s.ended := by
  unfold State.makeRoom
  split
  · split <;> rfl
  · rfl

theorem turn_dropped {timeout deadline : Option ℚ} : (s.turn timeout deadline).dropped = s.dropped := by
  unfold State.turn
  split
  · split
    · rfl
    · split
      · split <;> rfl
      · rfl
  · rfl

/-- Only a frame that comes in drops one, and only a turn of the loop ends it. -/
theorem step_frame (h : step s a = some t) :
    (t.dropped = s.dropped ∨ ∃ id res, a = .onFrame id res) ∧ (t.ended = s.ended ∨ a = .turn) := by
  cases a with
  | onFrame id res =>
    cases h
    exact ⟨.inr ⟨id, res, rfl⟩, .inl makeRoom_ended⟩
  | turn =>
    simp only [step] at h
    split at h
    · cases h
      exact ⟨.inl turn_dropped, .inr rfl⟩
    · cases h
  | onEvent id ev =>
    cases h
    exact ⟨.inl rfl, .inl rfl⟩
  | onExit =>
    cases h
    exact ⟨.inl rfl, .inl rfl⟩
  | _ =>
    simp only [step] at h
    split at h <;> cases h
    exact ⟨.inl rfl, .inl rfl⟩

theorem dropsOldest_of_step (hq : 1 ≤ queueSize) (hi : Accounted queueSize s) (h : step s a = some t) (hd : t.dropped ≠ s.dropped) :
    DropsOldest s t := by
  rcases (step_frame h).1 with heq | ⟨id, res, rfl⟩
  · exact absurd heq hd
  · cases h
    rcases makeRoom_cases hi hq with ⟨-, heq⟩ | ⟨hfull, older, oldest, younger, hitems, holder, holdest, heq⟩
    · rw [heq] at hd
      exact absurd rfl hd
    · cases oldest with
      | frame oldest =>
        refine ⟨hfull.trans hi.size.symm, older, oldest, younger, res.named id, hitems, holder, ?_, ?_⟩
        · rw [heq]
          rfl
        · rw [heq]
          rfl
      | event ev => cases holdest

/-- The loop raises with nothing in the list and nothing in hand. -/
theorem empty_of_gone (h : step s a = some t) (hg : t.ended = s.ended ++ [.gone]) : s.items = [] ∧ s.inHand = [] := by
  rcases (step_frame h).2 with heq | rfl
  · rw [heq] at hg
    simp at hg
  · simp only [step] at h
    split at h
    · next timeout deadline hc =>
      cases h
      refine ⟨?_, by rw [State.inHand, hc]⟩
      cases hitems : s.items with
      | nil => rfl
      | cons item rest =>
        simp [State.turn, hitems] at hg
    · cases h

/-! ## Runs -/

theorem Accounted.events (hi : Accounted queueSize s) :
    s.kept.filter (!·.isFrame) = s.received.filter (!·.isFrame) := by
  refine (hi.order.filter _).eq_of_length ?_
  have hlen := (hi.perm.filter (!·.isFrame)).length_eq
  have hnone : s.dropped.filter (!·.isFrame) = [] := by
    rw [List.filter_eq_nil_iff]
    intro item hitem
    simp [hi.dropped item hitem]
  rw [List.filter_append, hnone, List.append_nil] at hlen
  exact hlen.symm

theorem Accounted.frames (hi : Accounted queueSize s) :
    (s.received.countP Item.isFrame : Int) =
      s.yielded.countP Item.isFrame + s.inHand.countP Item.isFrame + s.framesDropped + s.frameCount := by
  have hperm := hi.perm.countP_eq Item.isFrame
  have hdropped : s.dropped.countP Item.isFrame = s.dropped.length := List.countP_eq_length.mpr hi.dropped
  rw [State.kept, List.countP_append, List.countP_append, List.countP_append, hdropped] at hperm
  rw [hi.count, hi.framesDropped]
  omega

/-- **The queue of the results**: its counter, its bound, the order, the events
and the frames of what came in; and of each next step, which frame it drops and
what it leaves behind when the runtime is gone. -/
theorem results_accounted (hq : 1 ≤ queueSize) (hr : run step (State.start queueSize : State F E) as = some t) :
    (t.frameCount = t.items.countP Item.isFrame ∧ t.frameCount ≤ queueSize) ∧
    (t.yielded ++ t.inHand ++ t.items).Sublist t.received ∧
    (t.yielded ++ t.inHand ++ t.items).filter (!·.isFrame) = t.received.filter (!·.isFrame) ∧
    t.received.Perm (t.yielded ++ t.inHand ++ t.items ++ t.dropped) ∧
    (t.received.countP Item.isFrame : Int) =
      t.yielded.countP Item.isFrame + t.inHand.countP Item.isFrame + t.framesDropped + t.frameCount ∧
    ∀ a u, step t a = some u → (u.dropped ≠ t.dropped → DropsOldest t u) ∧
      (u.ended = t.ended ++ [.gone] → t.items = [] ∧ t.inHand = []) := by
  have hi : Accounted queueSize t := run_invariant' (fun _ _ _ hi hs => accounted_step hq hi hs) (accounted_start hq) hr
  exact ⟨⟨hi.count, hi.bound⟩, hi.order, hi.events, hi.perm, hi.frames, fun a u hs =>
    ⟨dropsOldest_of_step hq hi hs, empty_of_gone hs⟩⟩

/-- Two frames and an event in a queue of one frame, then the runtime exits and
the consumer takes what there is. -/
def twoFrames : List (Action Nat Unit) :=
  [.onFrame (some "cam-1") ⟨"", 1⟩, .onEvent (some "cam-1") ⟨"", ()⟩, .onFrame (some "cam-1") ⟨"", 2⟩, .onExit,
    .results none, .turn, .yields, .next, .turn, .yields, .next]

theorem results_accounted_two :
    ∃ t, run step (.start 1) twoFrames = some t ∧ t.framesDropped = 1 ∧
      t.yielded = [.event ⟨"cam-1", ()⟩, .frame ⟨"cam-1", 2⟩] ∧
      (t.yielded ++ t.inHand ++ t.items).filter (!·.isFrame) = t.received.filter (!·.isFrame) ∧
      ∀ u, step t .turn = some u → u.ended = t.ended ++ [.gone] → t.items = [] := by
  have hrun : ∃ t, run step (.start 1) twoFrames = some t ∧ t.framesDropped = 1 ∧
      t.yielded = [.event ⟨"cam-1", ()⟩, .frame ⟨"cam-1", 2⟩] := ⟨_, rfl, rfl, rfl⟩
  obtain ⟨t, hr, hdropped, hyielded⟩ := hrun
  obtain ⟨-, -, hevents, -, -, hnext⟩ := results_accounted (by decide) hr
  exact ⟨t, hr, hdropped, hyielded, hevents, fun u hs hg => ((hnext .turn u hs).2 hg).1⟩

end RetailVision.Embed
