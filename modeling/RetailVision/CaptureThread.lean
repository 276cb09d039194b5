/-
`OpenCVFFmpeg` of `retail_core/video.py`: a thread that reads a capture as fast as it
gives frames and keeps the newest one, and its user, who reads that frame, closes
the source, and may start it again.

In every run a frame is read once at most, and is the newest there is; and as long
as `close` does not give up waiting for the thread, a capture is opened, read by one
call at a time and released once, one after the other, and none is left open
(`captures_owned`).

Left out: the time, but that a wait may end; what a frame is made of; and the
environment of FFmpeg.
-/
import RetailVision.Lib.Run
import Mathlib.Data.List.GetD

set_option linter.all false

namespace RetailVision.CaptureThread

open Lib

/-- Where the thread is in `_reader`. -/
inductive Pc (φ : Type)
  /-- before it looks whether it is running -/
  | top
  /-- in `_open` -/
  | opening
  /-- before it reads `_cap` -/
  | loaded
  /-- in the `read` of a capture -/
  | reading (c : Nat)
  /-- with a frame -/
  | got (frame : φ)
  /-- it has returned, or an exception has ended it -/
  | ended

structure Reader (φ : Type) where
  pc : Pc φ
  failures : Nat

/-- Where the user is. -/
inductive User
  | idle
  /-- in `read`, waiting for a frame -/
  | waiting
  /-- in `close`, waiting for a thread -/
  | joining (t : Nat)
  deriving DecidableEq

/-- What happens to a capture. -/
inductive Use
  | opened (c : Nat)
  | readBegins (c : Nat)
  | readEnds (c : Nat)
  | released (c : Nat)

structure State (φ : Type) where
  /-- `_cap`; the captures are numbered -/
  cap : Option Nat
  thread : Option Nat
  running : Bool
  frame : Option φ
  seq : Nat
  consumed : Nat
  user : User
  /-- the threads there have been -/
  readers : List (Reader φ)
  /-- how many captures there have been -/
  captures : Nat
  uses : List Use
  published : List φ
  /-- the frames that `read` has returned, each with how many had been published -/
  taken : List (Nat × φ)

inductive Action (φ : Type)
  /-- the user calls `read`, which starts the source if it is not -/
  | read
  | readReturns
  /-- `read` comes to its deadline -/
  | readNone
  | close
  | joined
  /-- `join` returns, and the thread has not -/
  | joinTimeout
  /-- the next of what a thread does of its own -/
  | go (t : Nat)
  | opened (t : Nat)
  | openFails (t : Nat)
  | gives (t : Nat) (frame : φ)
  | givesNone (t : Nat)
  /-- an exception -/
  | raises (t : Nat)

variable {φ : Type}

def State.set (s : State φ) (t : Nat) (r : Reader φ) : State φ := { s with readers := s.readers.set t r }

/-- `_cap` is released, and is none any more. -/
def State.drop (s : State φ) : State φ := { s with cap := none, uses := s.uses ++ s.cap.toList.map .released }

/-- `read_failure_limit` is at least one. -/
def step (limit : Nat) (s : State φ) : Action φ → Option (State φ)
  | .read => match s.user, s.thread with
    | .idle, none => some { s with
        running := true
        thread := some s.readers.length
        readers := s.readers ++ [{ pc := .top, failures := 0 }]
        user := .waiting }
    | .idle, some _ => some { s with user := .waiting }
    | _, _ => none
  | .readReturns => match s.user, s.frame with
    | .waiting, some frame => if s.seq = s.consumed then none else some { s with
        consumed := s.seq
        user := .idle
        taken := s.taken ++ [(s.published.length, frame)] }
    | _, _ => none
  | .readNone => match s.user with
    | .waiting => if s.seq = s.consumed then some { s with user := .idle } else none
    | _ => none
  | .close => match s.user, s.thread with
    | .idle, some t => some { s with running := false, thread := none, user := .joining t }
    | .idle, none => some { s.drop with running := false }
    | _, _ => none
  | .joined => match s.user with
    | .joining t => match s.readers[t]? with
      | some { pc := .ended, .. } => some { s.drop with user := .idle }
      | _ => none
    | _ => none
  | .joinTimeout => match s.user with
    | .joining _ => some { s.drop with user := .idle }
    | _ => none
  | .go t => match s.readers[t]? with
    | none => none
    | some r => match r.pc with
      | .top =>
        if s.running = false then some (s.drop.set t { r with pc := .ended })
        else match s.cap with
          | none => some (s.set t { r with pc := .opening })
          | some _ => some (s.set t { r with pc := .loaded })
      | .loaded => match s.cap with
        | none => some (s.set t { r with pc := .ended })
        | some c => some { s.set t { r with pc := .reading c } with uses := s.uses ++ [.readBegins c] }
      | .got frame => some { s.set t { r with pc := .top } with
          frame := some frame
          seq := s.seq + 1
          published := s.published ++ [frame] }
      | _ => none
  | .opened t => match s.readers[t]? with
    | some { pc := .opening, .. } => some { s.set t { pc := .loaded, failures := 0 } with
        cap := some s.captures
        captures := s.captures + 1
        uses := s.uses ++ [.opened s.captures] }
    | _ => none
  | .openFails t => match s.readers[t]? with
    | some { pc := .opening, failures } => some (s.set t { pc := .top, failures })
    | _ => none
  | .gives t frame => match s.readers[t]? with
    | some { pc := .reading c, .. } => some { s.set t { pc := .got frame, failures := 0 } with uses := s.uses ++ [.readEnds c] }
    | _ => none
  | .givesNone t => match s.readers[t]? with
    | some { pc := .reading c, failures } =>
      let after : State φ := { s with uses := s.uses ++ [.readEnds c] }
      if failures + 1 < limit then some (after.set t { pc := .top, failures := failures + 1 })
      else match s.cap with
        | some _ => some (after.drop.set t { pc := .top, failures := failures + 1 })
        | none => some (after.set t { pc := .ended, failures := failures + 1 })
    | _ => none
  | .raises t => match s.readers[t]? with
    | some { pc := .reading c, failures } => some { s.set t { pc := .ended, failures } with uses := s.uses ++ [.readEnds c] }
    | some { pc := .opening, failures } => some (s.set t { pc := .ended, failures })
    | some { pc := .got _, failures } => some (s.set t { pc := .ended, failures })
    | _ => none

/-- A source that has not been started. -/
def start : State φ where
  cap := none
  thread := none
  running := false
  frame := none
  seq := 0
  consumed := 0
  user := .idle
  readers := []
  captures := 0
  uses := []
  published := []
  taken := []

/-! ## How captures are to be used -/

/-- The capture that is open, and whether it is being read. -/
def use : Option (Nat × Bool) → Use → Option (Option (Nat × Bool))
  | none, .opened c => some (some (c, false))
  | some (c, false), .readBegins d => if c = d then some (some (c, true)) else none
  | some (c, true), .readEnds d => if c = d then some (some (c, false)) else none
  | some (c, false), .released d => if c = d then some none else none
  | _, _ => none

variable {s s' : State φ} {a : Action φ} {limit t : Nat} {r r' : Reader φ} {cur cur' : Option (Nat × Bool)} {cap : Option Nat}

/-! ## The frames -/

/-- What is published and what is read. -/
structure Frames (s : State φ) : Prop where
  seq : s.seq = s.published.length
  frame : s.frame = s.published.getLast?
  order : (s.taken.map (·.1)).Pairwise (· < ·)
  consumed : ∀ x ∈ s.taken, x.1 ≤ s.consumed
  newest : ∀ x ∈ s.taken, 0 < x.1 ∧ s.published[x.1 - 1]? = some x.2
  known : s.consumed ≤ s.seq

/-- The frames are not touched. -/
def Quiet (s s' : State φ) : Prop :=
  s'.frame = s.frame ∧ s'.seq = s.seq ∧ s'.consumed = s.consumed ∧ s'.published = s.published ∧ s'.taken = s.taken

theorem Frames.quiet (h : Frames s) (hq : Quiet s s') : Frames s' := by
  obtain ⟨hframe, hseq, hconsumed, hpublished, htaken⟩ := hq
  refine ⟨by rw [hseq, hpublished, h.seq], by rw [hframe, hpublished, h.frame], by rw [htaken]; exact h.order, ?_, ?_,
    by rw [hconsumed, hseq]; exact h.known⟩
  · rw [htaken, hconsumed]
    exact h.consumed
  · rw [htaken, hpublished]
    exact h.newest

/-- **What a step does to the frames.** -/
theorem step_frames (hs : step limit s a = some s') : Quiet s s' ∨
    (∃ frame, s'.frame = some frame ∧ s'.seq = s.seq + 1 ∧ s'.published = s.published ++ [frame] ∧
      s'.consumed = s.consumed ∧ s'.taken = s.taken) ∨
    ∃ frame, s.frame = some frame ∧ s.seq ≠ s.consumed ∧ s'.consumed = s.seq ∧ s'.taken = s.taken ++ [(s.published.length, frame)] ∧
      s'.frame = s.frame ∧ s'.seq = s.seq ∧ s'.published = s.published := by
  cases a with
  | readReturns =>
    simp only [step] at hs
    split at hs
    · next frame _ hframe =>
      split at hs <;> cases hs
      next hne => exact .inr (.inr ⟨frame, hframe, hne, rfl, rfl, rfl, rfl, rfl⟩)
    · cases hs
  | go t =>
    simp only [step] at hs
    split at hs
    · cases hs
    · split at hs
      · split at hs
        · cases hs
          exact .inl ⟨rfl, rfl, rfl, rfl, rfl⟩
        · split at hs <;> cases hs <;> exact .inl ⟨rfl, rfl, rfl, rfl, rfl⟩
      · split at hs <;> cases hs <;> exact .inl ⟨rfl, rfl, rfl, rfl, rfl⟩
      · cases hs
        exact .inr (.inl ⟨_, rfl, rfl, rfl, rfl, rfl⟩)
      · cases hs
  | givesNone t =>
    simp only [step] at hs
    split at hs
    · split at hs
      · cases hs
        exact .inl ⟨rfl, rfl, rfl, rfl, rfl⟩
      · split at hs <;> cases hs <;> exact .inl ⟨rfl, rfl, rfl, rfl, rfl⟩
    · cases hs
  | joined =>
    simp only [step] at hs
    split at hs
    · split at hs <;> cases hs
      exact .inl ⟨rfl, rfl, rfl, rfl, rfl⟩
    · cases hs
  | readNone =>
    simp only [step] at hs
    split at hs
    · split at hs <;> cases hs
      exact .inl ⟨rfl, rfl, rfl, rfl, rfl⟩
    · cases hs
  | read | close | joinTimeout | opened t | openFails t | gives t frame | raises t =>
    simp only [step] at hs
    split at hs <;> cases hs <;> exact .inl ⟨rfl, rfl, rfl, rfl, rfl⟩

/-- The thread keeps a new frame. -/
theorem Frames.publishes {frame : φ} (h : Frames s) (hframe : s'.frame = some frame) (hseq : s'.seq = s.seq + 1)
    (hpublished : s'.published = s.published ++ [frame]) (hconsumed : s'.consumed = s.consumed) (htaken : s'.taken = s.taken) :
    Frames s' := by
  refine ⟨?_, ?_, by rw [htaken]; exact h.order, by rw [htaken, hconsumed]; exact h.consumed, fun x hx => ?_, ?_⟩
  · rw [hseq, hpublished, h.seq, List.length_append, List.length_singleton]
  · rw [hframe, hpublished, List.getLast?_concat]
  · rw [htaken] at hx
    obtain ⟨hpos, hget⟩ := h.newest x hx
    rw [hpublished, List.getElem?_append_left (List.getElem?_eq_some_iff.mp hget).1]
    exact ⟨hpos, hget⟩
  · rw [hconsumed, hseq]
    exact Nat.le_succ_of_le h.known

/-- The user reads the frame that is kept, which it has not read yet. -/
theorem Frames.takes {frame : φ} (h : Frames s) (hframe : s.frame = some frame) (hne : s.seq ≠ s.consumed)
    (hconsumed : s'.consumed = s.seq) (htaken : s'.taken = s.taken ++ [(s.published.length, frame)]) (hframe' : s'.frame = s.frame)
    (hseq : s'.seq = s.seq) (hpublished : s'.published = s.published) : Frames s' := by
  have hlast : s.published.getLast? = some frame := h.frame.symm.trans hframe
  have hknown := h.known
  have hlen := h.seq
  refine ⟨by rw [hseq, hpublished, h.seq], by rw [hframe', hpublished, h.frame], ?_, fun x hx => ?_, fun x hx => ?_,
    Nat.le_of_eq (hconsumed.trans hseq.symm)⟩
  · rw [htaken, List.map_append]
    refine List.pairwise_append.mpr ⟨h.order, List.pairwise_singleton _ _, fun n hn m hm => ?_⟩
    obtain ⟨x, hx, rfl⟩ := List.mem_map.mp hn
    cases List.mem_singleton.mp hm
    have hold := h.consumed x hx
    show x.1 < s.published.length
    omega
  · rw [htaken] at hx
    rw [hconsumed]
    obtain hx | hx := List.mem_append.mp hx
    · exact Nat.le_trans (h.consumed x hx) hknown
    · cases List.mem_singleton.mp hx
      exact Nat.le_of_eq hlen.symm
  · rw [hpublished]
    rw [htaken] at hx
    obtain hx | hx := List.mem_append.mp hx
    · exact h.newest x hx
    · cases List.mem_singleton.mp hx
      rw [List.getLast?_eq_getElem?] at hlast
      exact ⟨by omega, hlast⟩

theorem Frames.step (h : Frames s) (hs : step limit s a = some s') : Frames s' := by
  obtain hq | ⟨frame, hframe, hseq, hpublished, hconsumed, htaken⟩ |
    ⟨frame, hframe, hne, hconsumed, htaken, hframe', hseq, hpublished⟩ := step_frames hs
  · exact h.quiet hq
  · exact h.publishes hframe hseq hpublished hconsumed htaken
  · exact h.takes hframe hne hconsumed htaken hframe' hseq hpublished

/-! ## The captures -/

/-- The thread that is not known to have ended. -/
def State.live (s : State φ) : Option Nat :=
  match s.user with
  | .joining t => some t
  | _ => s.thread

/-- What the thread makes of `_cap` and of the capture that is open. -/
def Holds : Pc φ → Option Nat → Option (Nat × Bool) → Prop
  | .opening, cap, cur => cap = none ∧ cur = none
  | .loaded, cap, cur => ∃ c, cap = some c ∧ cur = some (c, false)
  | .reading c, cap, cur => cap = some c ∧ cur = some (c, true)
  | _, cap, cur => cur = cap.map fun c => (c, false)

structure Owned (s : State φ) (cur : Option (Nat × Bool)) : Prop where
  uses : run use none s.uses = some cur
  alone : ∀ (t : Nat) (r : Reader φ), s.readers[t]? = some r → r.pc = .ended ∨ s.live = some t
  live : ∀ t, s.live = some t → ∃ r, s.readers[t]? = some r ∧ Holds r.pc s.cap cur
  dead : s.live = none → s.cap = none ∧ cur = none
  joining : ∀ t, s.user = .joining t → s.thread = none

/-- **The thread goes on**, and nobody else does. -/
theorem Owned.goOn (h : Owned s cur) (hr : s.readers[t]? = some r) (hpc : r.pc ≠ .ended) (more : List Use)
    (hreaders : s'.readers = s.readers.set t r') (huser : s'.user = s.user) (hthread : s'.thread = s.thread) (huses : s'.uses = s.uses ++ more)
    (hmore : run use cur more = some cur') (hholds : Holds r'.pc s'.cap cur') : Owned s' cur' := by
  have hlive : s'.live = s.live := by rw [State.live, State.live, huser, hthread]
  have hmine : s.live = some t := (h.alone t r hr).resolve_left hpc
  have hget : ∀ k, s'.readers[k]? = if t = k then some r' else s.readers[k]? := by
    intro k
    rw [hreaders, List.getElem?_set]
    have ht := (List.getElem?_eq_some_iff.mp hr).1
    by_cases htk : t = k
    · rw [if_pos htk, if_pos htk, if_pos (by omega)]
    · rw [if_neg htk, if_neg htk]
  refine ⟨?_, fun k r₀ hr₀ => ?_, fun k hk => ?_, fun hnone => ?_, fun k hk => ?_⟩
  · rw [huses, run_append]
    exact ⟨cur, h.uses, hmore⟩
  · rw [hget] at hr₀
    split at hr₀
    · next htk => exact .inr (by rw [hlive, hmine, htk])
    · rw [hlive]
      exact h.alone k r₀ hr₀
  · rw [hlive, hmine] at hk
    cases hk
    exact ⟨r', by rw [hget, if_pos rfl], hholds⟩
  · rw [hlive, hmine] at hnone
    cases hnone
  · rw [hthread]
    exact h.joining k (huser.symm.trans hk)

/-- What is in `_cap` is released. -/
theorem run_drop (cap : Option Nat) : run use (cap.map fun c => (c, false)) (cap.toList.map .released) = some none := by
  cases cap with
  | none => rfl
  | some c => simp [run, use]

/-- The user goes on, and it is still the same thread that is not known to have ended. -/
theorem Owned.user (h : Owned s cur) (hreaders : s'.readers = s.readers) (hlive : s'.live = s.live) (huses : s'.uses = s.uses)
    (hcap : s'.cap = s.cap) (hjoining : ∀ t, s'.user = .joining t → s'.thread = none) : Owned s' cur where
  uses := by rw [huses]; exact h.uses
  alone := by rw [hreaders, hlive]; exact h.alone
  live := by rw [hreaders, hlive, hcap]; exact h.live
  dead := by rw [hlive, hcap]; exact h.dead
  joining := hjoining

/-- **The source is started.** -/
theorem Owned.read (h : Owned s cur) (hs : step limit s .read = some s') : Owned s' cur := by
  simp only [step] at hs
  split at hs
  · next huser hthread =>
    cases hs
    have hdead : s.live = none := by rw [State.live, huser, hthread]
    obtain ⟨hcap, hcur⟩ := h.dead hdead
    refine ⟨h.uses, fun k r hr => ?_, fun k hk => ?_, fun hnone => (by cases hnone), fun k hk => (by cases hk)⟩
    · rw [List.getElem?_append] at hr
      split at hr
      · refine .inl ((h.alone k r hr).resolve_right fun hlive => ?_)
        rw [hdead] at hlive
        cases hlive
      · next hk =>
        have hk' := (List.getElem?_eq_some_iff.mp hr).1
        rw [List.length_singleton] at hk'
        refine .inr ?_
        show some s.readers.length = some k
        rw [show k = s.readers.length by omega]
    · cases hk
      exact ⟨{ pc := .top, failures := 0 }, by simp, by simp [Holds, hcap, hcur]⟩
  · next huser hthread =>
    cases hs
    exact h.user rfl (by simp [State.live, huser]) rfl rfl (fun k hk => by cases hk)
  · cases hs

/-- **The source is closed.** -/
theorem Owned.close (h : Owned s cur) (hs : step limit s .close = some s') : ∃ cur', Owned s' cur' := by
  simp only [step] at hs
  split at hs
  · next t huser hthread =>
    cases hs
    exact ⟨cur, h.user rfl (by simp [State.live, huser, hthread]) rfl rfl (fun k _ => rfl)⟩
  · next huser hthread =>
    cases hs
    have hdead : s.live = none := by rw [State.live, huser, hthread]
    obtain ⟨hcap, hcur⟩ := h.dead hdead
    exact ⟨cur, h.user rfl rfl (by simp [State.drop, hcap]) hcap.symm (fun k hk => h.joining k hk)⟩
  · cases hs

/-- **The thread has ended**, and what it has left open is released. -/
theorem Owned.joined (h : Owned s cur) (hs : step limit s .joined = some s') : Owned s' none := by
  simp only [step] at hs
  split at hs
  · next t huser =>
    split at hs
    · next failures hr =>
      cases hs
      have hlive : s.live = some t := by rw [State.live, huser]
      have hthread : s.thread = none := h.joining t huser
      obtain ⟨r, hr', hholds⟩ := h.live t hlive
      rw [hr] at hr'
      cases hr'
      refine ⟨?_, fun k r hrk => ?_, fun k hk => ?_, fun _ => ⟨rfl, rfl⟩, fun k hk => by cases hk⟩
      · rw [show ({ s.drop with user := .idle } : State φ).uses = s.uses ++ s.cap.toList.map .released from rfl, run_append]
        exact ⟨cur, h.uses, hholds ▸ run_drop s.cap⟩
      · refine .inl ((h.alone k r hrk).elim id fun hk => ?_)
        rw [hlive] at hk
        cases hk
        cases hr.symm.trans hrk
        rfl
      · cases hthread.symm.trans hk
    · cases hs
  · cases hs

/-- What the thread that is not known to have ended makes of the capture. -/
theorem Owned.holds (h : Owned s cur) (hr : s.readers[t]? = some r) (hpc : r.pc ≠ .ended) : Holds r.pc s.cap cur := by
  obtain ⟨r₀, hr₀, hholds⟩ := h.live t ((h.alone t r hr).resolve_left hpc)
  cases hr.symm.trans hr₀
  exact hholds

theorem Owned.go (h : Owned s cur) (hs : step limit s (.go t) = some s') : ∃ cur', Owned s' cur' := by
  simp only [step] at hs
  split at hs
  · cases hs
  · next r hr =>
    split at hs
    · next hpc =>
      have hne : r.pc ≠ .ended := by rw [hpc]; simp
      have hholds := h.holds hr hne
      rw [hpc] at hholds
      split at hs
      · cases hs
        refine ⟨none, h.goOn hr hne (s.cap.toList.map .released) rfl rfl rfl rfl ?_ rfl⟩
        rw [show cur = s.cap.map fun c => (c, false) from hholds]
        exact run_drop s.cap
      · split at hs
        · next hcap =>
          cases hs
          refine ⟨cur, h.goOn hr hne [] rfl rfl rfl (List.append_nil _).symm rfl ⟨hcap, ?_⟩⟩
          rw [show cur = s.cap.map fun c => (c, false) from hholds, hcap]
          rfl
        · next c hcap =>
          cases hs
          refine ⟨cur, h.goOn hr hne [] rfl rfl rfl (List.append_nil _).symm rfl ⟨c, hcap, ?_⟩⟩
          rw [show cur = s.cap.map fun c => (c, false) from hholds, hcap]
          rfl
    · next hpc =>
      have hne : r.pc ≠ .ended := by rw [hpc]; simp
      have hholds := h.holds hr hne
      rw [hpc] at hholds
      obtain ⟨c, hcap, rfl⟩ := hholds
      rw [hcap] at hs
      cases hs
      exact ⟨some (c, true), h.goOn hr hne [.readBegins c] rfl rfl rfl rfl (by simp [run, use]) ⟨hcap, rfl⟩⟩
    · next frame hpc =>
      have hne : r.pc ≠ .ended := by rw [hpc]; simp
      have hholds := h.holds hr hne
      rw [hpc] at hholds
      cases hs
      exact ⟨cur, h.goOn hr hne [] rfl rfl rfl (List.append_nil _).symm rfl hholds⟩
    · cases hs

/-- **What a step does to the captures**, unless `join` gives up. -/
theorem Owned.step (h : Owned s cur) (ha : a ≠ .joinTimeout) (hs : step limit s a = some s') : ∃ cur', Owned s' cur' := by
  cases a with
  | read => exact ⟨cur, h.read hs⟩
  | close => exact h.close hs
  | joined => exact ⟨none, h.joined hs⟩
  | go t => exact h.go hs
  | joinTimeout => exact absurd rfl ha
  | readReturns =>
    simp only [CaptureThread.step] at hs
    split at hs
    · next huser _ =>
      split at hs <;> cases hs
      exact ⟨cur, h.user rfl (by simp [State.live, huser]) rfl rfl (fun k hk => by cases hk)⟩
    · cases hs
  | readNone =>
    simp only [CaptureThread.step] at hs
    split at hs
    · next huser =>
      split at hs <;> cases hs
      exact ⟨cur, h.user rfl (by simp [State.live, huser]) rfl rfl (fun k hk => by cases hk)⟩
    · cases hs
  | opened t =>
    simp only [CaptureThread.step] at hs
    split at hs
    · next failures hr =>
      cases hs
      obtain ⟨-, rfl⟩ := h.holds hr (by simp)
      exact ⟨some (s.captures, false), h.goOn hr (by simp) [.opened s.captures] rfl rfl rfl rfl rfl ⟨s.captures, rfl, rfl⟩⟩
    · cases hs
  | openFails t =>
    simp only [CaptureThread.step] at hs
    split at hs
    · next failures hr =>
      cases hs
      obtain ⟨hcap, rfl⟩ := h.holds hr (by simp)
      exact ⟨none, h.goOn hr (by simp) [] rfl rfl rfl (List.append_nil _).symm rfl (by simp [Holds, State.set, hcap])⟩
    · cases hs
  | gives t frame =>
    simp only [CaptureThread.step] at hs
    split at hs
    · next c failures hr =>
      cases hs
      obtain ⟨hcap, rfl⟩ := h.holds hr (by simp)
      exact ⟨some (c, false), h.goOn hr (by simp) [.readEnds c] rfl rfl rfl rfl (by simp [run, use]) (by simp [Holds, State.set, hcap])⟩
    · cases hs
  | givesNone t =>
    simp only [CaptureThread.step] at hs
    split at hs
    · next c failures hr =>
      obtain ⟨hcap, rfl⟩ := h.holds hr (by simp)
      split at hs
      · cases hs
        exact ⟨some (c, false), h.goOn hr (by simp) [.readEnds c] rfl rfl rfl rfl (by simp [run, use]) (by simp [Holds, State.set, hcap])⟩
      · -- so many reads have failed that the capture is given up
        rw [hcap] at hs
        cases hs
        refine ⟨none, h.goOn hr (by simp) [.readEnds c, .released c] rfl rfl rfl ?_ (by simp [run, use]) rfl⟩
        simp [State.set, State.drop]
    · cases hs
  | raises t =>
    simp only [CaptureThread.step] at hs
    split at hs
    · next c failures hr =>
      cases hs
      obtain ⟨hcap, rfl⟩ := h.holds hr (by simp)
      exact ⟨some (c, false), h.goOn hr (by simp) [.readEnds c] rfl rfl rfl rfl (by simp [run, use]) (by simp [Holds, State.set, hcap])⟩
    · next failures hr =>
      cases hs
      obtain ⟨hcap, rfl⟩ := h.holds hr (by simp)
      exact ⟨none, h.goOn hr (by simp) [] rfl rfl rfl (List.append_nil _).symm rfl (by simp [Holds, State.set, hcap])⟩
    · next frame failures hr =>
      cases hs
      have hholds := h.holds hr (by simp)
      exact ⟨cur, h.goOn hr (by simp) [] rfl rfl rfl (List.append_nil _).symm rfl hholds⟩
    · cases hs

/-- **The source**, in every run of its user and its threads: a frame that is read
was the newest of those published, and none is read twice; and where no `join` has
given up, what has happened to captures is that one is opened, read by one call at a
time and released, and then the next, and a source that is closed has none open. -/
theorem captures_owned {limit : Nat} {as : List (Action φ)} {s : State φ} (hr : run (step limit) start as = some s) :
    ((s.taken.map (·.1)).Pairwise (· < ·) ∧ ∀ x ∈ s.taken, 0 < x.1 ∧ s.published[x.1 - 1]? = some x.2) ∧
    ((∀ a ∈ as, a ≠ .joinTimeout) → ∃ cur, run use none s.uses = some cur ∧ (s.user = .idle → s.thread = none → cur = none)) := by
  refine ⟨?_, fun hjoin => ?_⟩
  · have hframes : Frames s := by
      refine run_invariant' (I := Frames) (fun s a s' hi hs => hi.step hs) ⟨rfl, rfl, ?_, ?_, ?_, Nat.le_refl _⟩ hr
      · exact List.Pairwise.nil
      · exact fun x hx => by cases hx
      · exact fun x hx => by cases hx
    exact ⟨hframes.order, hframes.newest⟩
  · obtain ⟨cur, howned⟩ : ∃ cur, Owned s cur := by
      refine run_invariant (I := fun s => ∃ cur, Owned s cur) (C := fun _ a => a ≠ .joinTimeout) (fun s a s' ha hi hs => ?_)
        (meets_of_forall hjoin) ⟨none, rfl, ?_, ?_, fun _ => ⟨rfl, rfl⟩, ?_⟩ hr
      · obtain ⟨cur, hi⟩ := hi
        exact hi.step ha hs
      · exact fun t r ht => by simp [start] at ht
      · exact fun t ht => by cases ht
      · exact fun t ht => by cases ht
    refine ⟨cur, howned.uses, fun huser hthread => (howned.dead ?_).2⟩
    rw [State.live, huser, hthread]

/-- A capture gives two frames, of which the second is read, and the source is closed
while the thread waits for a third. -/
def watched : List (Action Char) :=
  [.read, .go 0, .opened 0, .go 0, .gives 0 'a', .go 0, .go 0, .go 0, .gives 0 'b', .go 0, .readReturns, .go 0, .go 0, .close, .givesNone 0, .go 0,
    .joined]

theorem captures_owned_watched : ∃ s, run (step 10) start watched = some s ∧ s.taken = [(2, 'b')] ∧ s.uses.length = 8 ∧
    run use none s.uses = some none := by
  obtain ⟨s, hr⟩ : ∃ s, run (step 10) start watched = some s := Option.isSome_iff_exists.mp (by decide)
  obtain ⟨cur, huses, hclosed⟩ := (captures_owned hr).2 (by simp [watched])
  have hend : (run (step 10) start watched).map (fun s => (s.taken, s.uses.length, s.thread)) = some ([(2, 'b')], 8, none) := by decide
  have huser : (run (step 10) start watched).map (·.user) = some .idle := by decide
  rw [hr] at hend huser
  simp at hend huser
  rw [hclosed huser hend.2.2] at huses
  exact ⟨s, hr, hend.1, hend.2.1, huses⟩

-- A `join` that gives up lets a capture be released while it is being read.
example : (run (step 10) (start : State Char) [.read, .go 0, .opened 0, .go 0, .readNone, .close, .joinTimeout]).bind
    (fun s => run use none s.uses) = none := by decide

end RetailVision.CaptureThread
