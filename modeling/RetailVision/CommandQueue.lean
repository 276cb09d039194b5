/-
The commands of a supervisor on their way to `ControlPlane.handle`
(`_on_control_message`, `_cmd_loop` and `stop` of `vision_base/supervisor.py`): the
thread of the control connection puts messages in a queue of so many messages and
bytes, and another thread takes them out one by one.

In every run of the two, and of `stop`, what is let in is handled once and in order,
and the acks are those that the control plane gives to these commands one after the
other (`commands_served`): the threads make no difference to it.

Left out: how JSON is read, which is a parameter, whether an ack can be published,
and the log.
-/
import RetailVision.ControlHandle
import RetailVision.Lib.Machines
import Mathlib.Algebra.Order.Ring.Nat

set_option linter.all false

namespace RetailVision.CommandQueue

open Lib
open RetailVision.ControlHandle (Plane Received Outcome listRequest plainPy countingOps)
open RetailVision.Config (Py)
open RetailVision.Supervisor (Command)

abbrev Bytes := List UInt8

def maxMessages : Nat := 64
def maxBytes : Nat := 256 * 1024
def messageMaxBytes : Nat := 64 * 1024

/-- The bytes that `lstrip` strips. -/
def isSpace (b : UInt8) : Bool := b = 32 ∨ 9 ≤ b ∧ b ≤ 13

/-- The check of `_on_control_message` before the queue: it may be a JSON object. -/
def shaped (payload : Bytes) : Bool :=
  payload ≠ [] ∧ payload.length ≤ messageMaxBytes ∧ (payload.dropWhile isSpace).head? = some 123

/-- Where the thread is in `_cmd_loop`. -/
inductive Loop
  | idle
  /-- with a message that it has taken -/
  | busy (raw : Bytes)
  | ended

structure State (ω : Type) where
  queue : List Bytes
  /-- `_cmd_q_bytes` -/
  bytes : Nat
  dropped : Nat
  stopped : Bool
  loop : Loop
  plane : Plane
  world : ω
  /-- the messages that were not retained ones, and those that have been let in -/
  received : List Bytes
  accepted : List Bytes
  /-- what the thread has done with, and when -/
  handled : List (Bytes × Int)
  acks : List Json

inductive Action
  | message (payload : Bytes) (retain : Bool)
  | pop
  | handle (nowMs : Int)
  | stop
  /-- the thread sees that it is to stop -/
  | leave

variable {ω : Type} (py : Py) (ops : Command → Json → ω → ω × Outcome) (loads : Bytes → Option Json) (sessionId : String)

/-- `_on_control_message` -/
def onControlMessage (s : State ω) (payload : Bytes) : State ω :=
  let s := { s with received := s.received ++ [payload] }
  if shaped payload = false then { s with dropped := s.dropped + 1 }
  else if maxMessages ≤ s.queue.length ∨ maxBytes < s.bytes + payload.length then { s with dropped := s.dropped + 1 }
  else { s with queue := s.queue ++ [payload], bytes := s.bytes + payload.length, accepted := s.accepted ++ [payload] }

def step (s : State ω) : Action → Option (State ω)
  | .message payload retain => if retain then some s else some (onControlMessage s payload)
  | .pop => match s.loop, s.queue with
    | .idle, raw :: rest => if s.stopped then none else some { s with queue := rest, bytes := s.bytes - raw.length, loop := .busy raw }
    | _, _ => none
  | .handle nowMs => match s.loop with
    | .busy raw =>
      let s := { s with loop := .idle, handled := s.handled ++ [(raw, nowMs)] }
      match loads raw with
      | none => some s
      | some req =>
        let (plane, world, ack) := ControlHandle.handle py ops s.plane s.world ⟨req, sessionId, nowMs⟩
        some { s with plane := plane, world := world, acks := s.acks ++ ack.toList }
    | _ => none
  | .stop => some { s with stopped := true }
  | .leave => match s.loop with
    | .idle => if s.stopped then some { s with loop := .ended } else none
    | _ => none

def start (plane : Plane) (w : ω) : State ω where
  queue := []
  bytes := 0
  dropped := 0
  stopped := false
  loop := .idle
  plane := plane
  world := w
  received := []
  accepted := []
  handled := []
  acks := []

/-! ## One command after the other -/

/-- A control plane on its own, and what it answers. -/
def answer (pw : Plane × ω) (r : Received) : (Plane × ω) × List Json :=
  let (plane, world, ack) := ControlHandle.handle py ops pw.1 pw.2 r
  ((plane, world), ack.toList)

/-- The commands that messages are. -/
def commandsOf (handled : List (Bytes × Int)) : List Received :=
  handled.filterMap fun x => (loads x.1).map fun req => ⟨req, sessionId, x.2⟩

/-- The message that the thread has taken. -/
def Loop.hand : Loop → List Bytes
  | .busy raw => [raw]
  | _ => []

structure Inv (plane : Plane) (w : ω) (s : State ω) : Prop where
  few : s.queue.length ≤ maxMessages
  small : s.bytes ≤ maxBytes
  bytes : s.bytes = (s.queue.map List.length).sum
  order : s.handled.map (·.1) ++ s.loop.hand ++ s.queue = s.accepted
  shape : ∀ payload ∈ s.accepted, shaped payload = true
  sublist : s.accepted.Sublist s.received
  count : s.received.length = s.accepted.length + s.dropped
  served : Lib.after (answer py ops) ((plane, w), []) (commandsOf loads sessionId s.handled) = ((s.plane, s.world), s.acks)

variable {py ops loads sessionId} {s s' : State ω} {a : Action} {plane : Plane} {w : ω} {payload : Bytes}

/-- **A message comes.** -/
theorem Inv.message (h : Inv py ops loads sessionId plane w s) (payload : Bytes) :
    Inv py ops loads sessionId plane w (onControlMessage s payload) := by
  have hdrop : Inv py ops loads sessionId plane w { s with received := s.received ++ [payload], dropped := s.dropped + 1 } := by
    refine ⟨h.few, h.small, h.bytes, h.order, h.shape, h.sublist.trans (List.sublist_append_left ..), ?_, h.served⟩
    rw [List.length_append, h.count]
    rfl
  rw [onControlMessage]
  dsimp only
  split
  · exact hdrop
  · next hshape =>
    split
    · exact hdrop
    · next hroom =>
      rw [not_or] at hroom
      refine ⟨?_, ?_, ?_, ?_, fun x hx => ?_, h.sublist.append (.refl _), ?_, h.served⟩
      · rw [List.length_append, List.length_singleton]
        omega
      · show s.bytes + payload.length ≤ maxBytes
        omega
      · rw [List.map_append, List.sum_append, h.bytes]
        simp
      · rw [← h.order]
        simp
      · obtain hx | hx := List.mem_append.mp hx
        · exact h.shape x hx
        · cases List.mem_singleton.mp hx
          simpa using hshape
      · have hcount := h.count
        simp only [List.length_append, List.length_singleton]
        omega

/-- **A command is handled**, as the control plane would on its own. -/
theorem Inv.handle {nowMs : Int} (h : Inv py ops loads sessionId plane w s) (hs : step py ops loads sessionId s (.handle nowMs) = some s') :
    Inv py ops loads sessionId plane w s' := by
  simp only [step] at hs
  split at hs
  · next raw hloop =>
    have horder : (s.handled ++ [(raw, nowMs)]).map (·.1) ++ Loop.idle.hand ++ s.queue = s.accepted := by
      rw [← h.order, hloop]
      simp [Loop.hand]
    split at hs
    · next hnone =>
      cases hs
      refine ⟨h.few, h.small, h.bytes, horder, h.shape, h.sublist, h.count, ?_⟩
      have hnot : commandsOf loads sessionId (s.handled ++ [(raw, nowMs)]) = commandsOf loads sessionId s.handled := by
        simp [commandsOf, hnone]
      rw [hnot]
      exact h.served
    · next req hreq =>
      cases hs
      refine ⟨h.few, h.small, h.bytes, horder, h.shape, h.sublist, h.count, ?_⟩
      have hone : commandsOf loads sessionId (s.handled ++ [(raw, nowMs)]) =
          commandsOf loads sessionId s.handled ++ [⟨req, sessionId, nowMs⟩] := by
        simp [commandsOf, hreq]
      rw [hone, Lib.after_snoc, h.served]
      rfl
  · cases hs

theorem Inv.step (h : Inv py ops loads sessionId plane w s) (hs : step py ops loads sessionId s a = some s') :
    Inv py ops loads sessionId plane w s' := by
  cases a with
  | message payload retain =>
    cases retain with
    | true => cases hs; exact h
    | false => cases hs; exact h.message payload
  | handle nowMs => exact h.handle hs
  | pop =>
    simp only [CommandQueue.step] at hs
    split at hs
    · next raw rest hloop hqueue =>
      split at hs <;> cases hs
      have hbytes := h.bytes
      have hfew := h.few
      have hsmall := h.small
      rw [hqueue, List.map_cons, List.sum_cons] at hbytes
      rw [hqueue, List.length_cons] at hfew
      refine ⟨?_, ?_, ?_, ?_, h.shape, h.sublist, h.count, h.served⟩
      · show rest.length ≤ maxMessages
        omega
      · show s.bytes - raw.length ≤ maxBytes
        omega
      · show s.bytes - raw.length = (rest.map List.length).sum
        omega
      · rw [← h.order, hloop, hqueue]
        simp [Loop.hand]
    · cases hs
  | stop =>
    cases hs
    exact ⟨h.few, h.small, h.bytes, h.order, h.shape, h.sublist, h.count, h.served⟩
  | leave =>
    simp only [CommandQueue.step] at hs
    split at hs
    · next hloop =>
      split at hs <;> cases hs
      refine ⟨h.few, h.small, h.bytes, ?_, h.shape, h.sublist, h.count, h.served⟩
      rw [← h.order, hloop]
      rfl
    · cases hs

/-- Once it is stopped, the thread takes no message out. -/
theorem step_stopped (hstop : s.stopped = true) (hs : step py ops loads sessionId s a = some s') :
    s'.stopped = true ∧ s'.handled.map (·.1) ++ s'.loop.hand = s.handled.map (·.1) ++ s.loop.hand := by
  cases a with
  | message payload retain =>
    cases retain with
    | true => cases hs; exact ⟨hstop, rfl⟩
    | false =>
      cases hs
      rw [onControlMessage]
      dsimp only
      split
      · exact ⟨hstop, rfl⟩
      · split
        · exact ⟨hstop, rfl⟩
        · exact ⟨hstop, rfl⟩
  | pop =>
    simp only [step] at hs
    split at hs
    · rw [if_pos hstop] at hs
      cases hs
    · cases hs
  | handle nowMs =>
    simp only [step] at hs
    split at hs
    · next raw hloop =>
      rw [hloop]
      split at hs <;> cases hs <;> exact ⟨hstop, by simp [Loop.hand]⟩
    · cases hs
  | stop =>
    cases hs
    exact ⟨rfl, rfl⟩
  | leave =>
    simp only [step] at hs
    split at hs
    · next hloop =>
      rw [if_pos hstop] at hs
      cases hs
      exact ⟨hstop, by rw [hloop]; rfl⟩
    · cases hs

/-- `{"schema":"vb.command/1","device_id":"cam","request_id":"r1","command":"list_streams","params":{}}` -/
def listPayload : Bytes :=
  [123, 34, 115, 99, 104, 101, 109, 97, 34, 58, 34, 118, 98, 46, 99, 111, 109, 109, 97, 110, 100, 47, 49, 34, 44, 34, 100, 101, 118, 105,
    99, 101, 95, 105, 100, 34, 58, 34, 99, 97, 109, 34, 44, 34, 114, 101, 113, 117, 101, 115, 116, 95, 105, 100, 34, 58, 34, 114, 49, 34,
    44, 34, 99, 111, 109, 109, 97, 110, 100, 34, 58, 34, 108, 105, 115, 116, 95, 115, 116, 114, 101, 97, 109, 115, 34, 44, 34, 112, 97,
    114, 97, 109, 115, 34, 58, 123, 125, 125]

def loadsList (raw : Bytes) : Option Json := if raw = listPayload then some (listRequest "r1") else none

/-- A command, something that is none, and the command once more. -/
def redelivered : List Action :=
  [.message listPayload false, .pop, .message [91, 93] false, .message listPayload false, .handle 1, .pop, .stop, .handle 2, .leave]

end RetailVision.CommandQueue
