/-
The status topic of `retail_core`: `MqttPublisher` (`core-py/retail_core/publisher.py`)
as `main` of `core-py/retail_core/app.py` and its workers use it, the connections
to the broker, and the broker, by MQTT 3.1.1: a client that connects anew ends the
session it had, and a connection that ends without a DISCONNECT leaves the will,
`offline`, retained.

The lock lets one call at a time at the socket, so a call is interleaved with the
broker only. Anything may fail at any time: a connection may be refused, its
CONNACK may not come in time although the broker has let it in, what has been
written may be lost, the process may be killed and come back.

As long as no worker opens a connection between `publish_offline` and `close`, the
topic says `online` only while a session is connected that has said it last; where
all processes have one client id, exactly then (`status_retained`). Both
conditions are needed: see the examples.

Left out: a broker that refuses a client. A `sendall` of `online` that has failed
in `connect` fails from then on.
-/
import RetailVision.Lib.LastWill
import RetailVision.Lib.Run

set_option linter.all false

namespace RetailVision.StatusWill

open Lib

inductive Status
  | online
  | offline
  deriving DecidableEq

inductive Packet
  | connect
  | publishStatus (status : Status)
  | publish
  | disconnect
  deriving DecidableEq

/-- A connection, with what has been written on it and the broker has not read. -/
structure Conn (I : Type) where
  client : I
  queue : List Packet
  /-- the broker has let it in, and the CONNACK can be read -/
  acked : Bool
  /-- the broker has done with it -/
  gone : Bool

/-- A call of a method of `MqttPublisher` that takes the lock. -/
inductive Call
  | connect
  | publish
  | publishOffline
  deriving DecidableEq

/-- What a call is to send, once there is a connection. -/
def Call.packet : Call → Option Packet
  | connect => none
  | publish => some .publish
  | publishOffline => some (.publishStatus .offline)

/-- The call that holds the lock. -/
structure Job where
  call : Call
  /-- `attempt` of `_send` -/
  second : Bool
  /-- the connection whose CONNACK `_connect` waits for -/
  waiting : Option Nat

/-- Where `main` is. -/
inductive Phase
  /-- before `publisher.connect()` has returned or raised -/
  | starting
  | running
  /-- `publish_offline` has returned -/
  | told
  /-- `close` has -/
  | closed
  deriving DecidableEq

/-- A process. -/
structure Proc (I : Type) where
  clientId : I
  phase : Phase
  sock : Option Nat
  /-- a `sendall` on `sock` has failed -/
  broken : Bool
  job : Option Job

structure State (I : Type) where
  conns : List (Conn I)
  topic : Topic I Status
  proc : Option (Proc I)

inductive Action (I : Type)
  /-- a process starts -/
  | start (clientId : I)
  /-- it ends, or is killed -/
  | exit
  | call (c : Call)
  /-- `create_connection`, and the CONNECT -/
  | dial
  | dialFail
  /-- CONNACK, and `online` -/
  | ack
  | ackFail
  | onlineFail
  | write
  | writeFail
  | close
  | closeFail
  /-- the broker reads a packet -/
  | deliver (c : Nat)
  /-- the broker finds a connection ended, or gives it up -/
  | lose (c : Nat)

variable {I : Type}

/-- A call that may be made in this phase: `connect` before all others, `publish_offline`
where the loop of `main` is over, `publish` by a worker at any time from then on that there are any. -/
def Phase.allows : Phase → Call → Bool
  | .starting, .connect => true
  | .starting, _ => false
  | .running, .connect => false
  | .running, _ => true
  | _, .publish => true
  | _, _ => false

/-- After a call that has returned or raised. -/
def Phase.after (p : Phase) : Call → Phase
  | .connect => .running
  | .publish => p
  | .publishOffline => .told

/-- The lock is released. -/
def Proc.done (p : Proc I) (j : Job) : Proc I := { p with phase := p.phase.after j.call, job := none }

/-- An `OSError`: `_send` tries once more, from anew. -/
def Proc.fail (p : Proc I) (j : Job) : Proc I :=
  if j.call = .connect ∨ j.second = true then p.done j
  else { p with job := some { j with second := true, waiting := none } }

/-- Something is written on a connection. -/
def push (conns : List (Conn I)) (c : Nat) (p : Packet) : List (Conn I) :=
  conns.modify c fun x => { x with queue := x.queue ++ [p] }

/-- A step of the process. -/
def Proc.step (s : State I) (p : Proc I) : Action I → Option (State I)
  | .exit => some { s with proc := none }
  | .call c => match p.job with
    | none =>
      if p.phase.allows c then some { s with proc := some { p with job := some { call := c, second := false, waiting := none } } }
      else none
    | some _ => none
  | .dial => match p.job, p.sock with
    | some j, none => if j.waiting = none then
        some { s with
          conns := s.conns ++ [{ client := p.clientId, queue := [.connect], acked := false, gone := false }]
          proc := some { p with job := some { j with waiting := some s.conns.length } } }
      else none
    | _, _ => none
  | .dialFail => match p.job, p.sock with
    | some j, none => if j.waiting = none then some { s with proc := some (p.fail j) } else none
    | _, _ => none
  | .ack => match p.job with
    | some j => match j.waiting with
      | some c => if s.conns[c]?.any (·.acked) then
          let p := { p with sock := some c, broken := false }
          some { s with
            conns := push s.conns c (.publishStatus .online)
            proc := some (if j.call = .connect then p.done j else { p with job := some { j with waiting := none } }) }
        else none
      | none => none
    | none => none
  | .ackFail => match p.job with
    | some j => if j.waiting.isSome then some { s with proc := some (p.fail j) } else none
    | none => none
  | .onlineFail => match p.job with
    | some j => match j.waiting with
      | some c => if s.conns[c]?.any (·.acked) then
          -- `connect` does not close the socket that it leaves
          some { s with proc := some (if j.call = .connect then { p with sock := some c, broken := true }.done j else p.fail j) }
        else none
      | none => none
    | none => none
  | .write => match p.job, p.sock with
    | some j, some c => match j.call.packet with
      | some packet => if p.broken = true then none else some { s with conns := push s.conns c packet, proc := some (p.done j) }
      | none => none
    | _, _ => none
  | .writeFail => match p.job, p.sock with
    | some j, some _ => some { s with proc := some ({ p with sock := none, broken := false }.fail j) }
    | _, _ => none
  | .close => match p.job, p.sock with
    | none, some c => if p.phase = .told ∧ p.broken = false then
        some { s with conns := push s.conns c .disconnect, proc := some { p with sock := none, phase := .closed } }
      else none
    | _, _ => none
  | .closeFail =>
    if p.job.isNone ∧ p.phase = .told then some { s with proc := some { p with sock := none, broken := false, phase := .closed } }
    else none
  | _ => none

/-- The connection of a session, as long as it is connected. -/
def connOf (b : Topic I Status) (i : I) : Option Nat := (b.session i).map (·.conn)

/-- The broker has done with a connection, and reads no more of it. -/
def finish (conns : List (Conn I)) (c : Nat) : List (Conn I) := conns.modify c fun x => { x with queue := [], gone := true }

/-- The broker lets in connection `c`, and ends the session that the client had. -/
def accept (conns : List (Conn I)) (b : Topic I Status) (c : Nat) (x : Conn I) (queue : List Packet) : List (Conn I) :=
  (match connOf b x.client with
    | some old => finish conns old
    | none => conns).set c { x with queue := queue, acked := true }

section

variable [DecidableEq I]

/-- The broker reads `p` on connection `c`, and has this left of it. -/
def read (s : State I) (c : Nat) (x : Conn I) (p : Packet) (queue : List Packet) : State I :=
  match p with
  | .connect => { s with conns := accept s.conns s.topic c x queue, topic := s.topic.connect x.client c .offline }
  | .publishStatus status => { s with conns := s.conns.set c { x with queue := queue }, topic := s.topic.publish x.client status }
  | .publish => { s with conns := s.conns.set c { x with queue := queue } }
  | .disconnect => { s with conns := finish s.conns c, topic := s.topic.disconnect x.client }

def step (s : State I) : Action I → Option (State I)
  | .start clientId => match s.proc with
    | none => some { s with proc := some { clientId, phase := .starting, sock := none, broken := false, job := none } }
    | some _ => none
  | .deliver c => match s.conns[c]? with
    | some x => match x.queue with
      | p :: queue => if x.gone = true then none else some (read s c x p queue)
      | [] => none
    | none => none
  | .lose c => match s.conns[c]? with
    | some x => if x.gone = true then none else some { s with
        conns := finish s.conns c
        topic := if connOf s.topic x.client = some c then s.topic.lose x.client else s.topic }
    | none => none
  | a => match s.proc with
    | some p => p.step s a
    | none => none

end

/-- Before the first process. -/
def start (retained : Option Status) : State I := { conns := [], topic := { retained, session := fun _ => none }, proc := none }

/-- No connection is opened between `publish_offline` and `close`. -/
def Quiet (s : State I) (a : Action I) : Prop := match a, s.proc with
  | .dial, some p => p.phase ≠ .told
  | _, _ => True

instance (s : State I) (a : Action I) : Decidable (Quiet s a) := by
  unfold Quiet
  split <;> infer_instance

/-! ## What is on a connection -/

/-- The status that is said last, where `told` has been read and this is still to be. -/
def lastSaid (told : Option Status) : List Packet → Option Status
  | [] => told
  | .publishStatus status :: queue => lastSaid (some status) queue
  | _ :: queue => lastSaid told queue

/-- No CONNECT, and a DISCONNECT at the end only, with `online` not said last. -/
def Clean (told : Option Status) : List Packet → Prop
  | [] => True
  | .connect :: _ => False
  | .publishStatus status :: queue => Clean (some status) queue
  | .publish :: queue => Clean told queue
  | .disconnect :: queue => told ≠ some .online ∧ queue = []

variable {told : Option Status} {queue : List Packet} {status : Status} {packet : Packet}

theorem lastSaid_snoc (told : Option Status) (queue : List Packet) (p : Packet) : lastSaid told (queue ++ [p]) = match p with
    | .publishStatus status => some status
    | _ => lastSaid told queue := by
  induction queue generalizing told with
  | nil => cases p <;> rfl
  | cons q queue ih => cases q <;> exact ih _

theorem Clean.snoc (h : Clean told queue) (hbye : .disconnect ∉ queue) (hp : packet ≠ .connect)
    (hlast : packet = .disconnect → lastSaid told queue ≠ some .online) : Clean told (queue ++ [packet]) := by
  induction queue generalizing told with
  | nil =>
    cases packet with
    | connect => exact absurd rfl hp
    | publishStatus status => exact trivial
    | publish => exact trivial
    | disconnect => exact ⟨hlast rfl, rfl⟩
  | cons q queue ih =>
    have hrest : .disconnect ∉ queue := fun hmem => hbye (List.mem_cons_of_mem _ hmem)
    cases q with
    | connect => exact h
    | publishStatus status => exact ih h hrest hlast
    | publish => exact ih h hrest hlast
    | disconnect => exact absurd List.mem_cons_self hbye

/-! ## The connections and the broker -/

/-- Sessions and connections that have been let in and are not over go together. -/
structure Net (conns : List (Conn I)) (b : Topic I Status) : Prop where
  fresh : ∀ (c : Nat) (x : Conn I), conns[c]? = some x → x.acked = false → x.gone = false → x.queue = [.connect]
  session : ∀ i t, b.session i = some t → ∃ x : Conn I, conns[t.conn]? = some x ∧ x.client = i ∧ x.acked = true ∧ x.gone = false
  live : ∀ (c : Nat) (x : Conn I), conns[c]? = some x → x.acked = true → x.gone = false →
    ∃ t, b.session x.client = some t ∧ t.conn = c ∧ Clean t.told x.queue
  noWill : b.NoWill .online
  backed : b.Backed .online

/-- What a process may rely on, where the broker has gone on. -/
structure Later (conns : List (Conn I)) (b : Topic I Status) (conns' : List (Conn I)) (b' : Topic I Status) : Prop where
  conn : ∀ (c : Nat) (x : Conn I), conns[c]? = some x → ∃ x' : Conn I, conns'[c]? = some x' ∧ (x.acked = true → x'.acked = true) ∧
    (∀ p ∈ x'.queue, p ∈ x.queue) ∧ (x.acked = false → x'.acked = true → x'.queue = [])
  said : ∀ (c : Nat) (x x' : Conn I), conns[c]? = some x → conns'[c]? = some x' → x.acked = true → ∀ i t', b'.session i = some t' → t'.conn = c →
    ∃ t, b.session i = some t ∧ t.conn = c ∧ lastSaid t'.told x'.queue = lastSaid t.told x.queue

/-- A process, against the connections. -/
structure ProcOk (conns : List (Conn I)) (b : Topic I Status) (p : Proc I) : Prop where
  sock : ∀ c, p.sock = some c → ∃ x : Conn I, conns[c]? = some x ∧ x.acked = true ∧ .disconnect ∉ x.queue
  waiting : ∀ (j : Job) (c : Nat), p.job = some j → j.waiting = some c →
    p.sock = none ∧ ∃ x : Conn I, conns[c]? = some x ∧ (x.acked = true → x.queue = [])
  quiet : p.phase = .told → ∀ j, p.job = some j → j.waiting = none
  told : p.phase = .told → p.broken = false → ∀ (c : Nat) (x : Conn I), p.sock = some c → conns[c]? = some x →
    ∀ i t, b.session i = some t → t.conn = c → lastSaid t.told x.queue = some .offline

structure Inv (s : State I) : Prop where
  net : Net s.conns s.topic
  proc : ∀ p, s.proc = some p → ProcOk s.conns s.topic p

variable {conns conns' : List (Conn I)} {b b' : Topic I Status} {p : Proc I} {c k : Nat} {i : I} {x : Conn I} {s s' : State I}
  {a : Action I} {j : Job}

theorem ProcOk.later (h : ProcOk conns b p) (hl : Later conns b conns' b') : ProcOk conns' b' p where
  sock := fun c hc => by
    obtain ⟨x, hx, hacked, hbye⟩ := h.sock c hc
    obtain ⟨x', hx', hacked', hsub, -⟩ := hl.conn c x hx
    exact ⟨x', hx', hacked' hacked, fun hmem => hbye (hsub _ hmem)⟩
  waiting := fun j c hj hc => by
    obtain ⟨hsock, x, hx, hempty⟩ := h.waiting j c hj hc
    obtain ⟨x', hx', -, hsub, hnew⟩ := hl.conn c x hx
    refine ⟨hsock, x', hx', fun hacked' => ?_⟩
    cases hacked : x.acked with
    | false => exact hnew hacked hacked'
    | true =>
      rw [hempty hacked] at hsub
      exact List.eq_nil_iff_forall_not_mem.mpr fun p hp => absurd (hsub p hp) (by simp)
  quiet := h.quiet
  told := fun hphase hbroken c x' hc hx' i t' ht' hconn => by
    obtain ⟨x, hx, hacked, -⟩ := h.sock c hc
    obtain ⟨t, ht, htc, hsame⟩ := hl.said c x x' hx hx' hacked i t' ht' hconn
    rw [hsame]
    exact h.told hphase hbroken c x hc hx i t ht htc

theorem getElem?_push (conns : List (Conn I)) (c k : Nat) (p : Packet) : (push conns c p)[k]? =
    if c = k then conns[k]?.map (fun x => { x with queue := x.queue ++ [p] }) else conns[k]? := by
  rw [push, List.getElem?_modify]
  split
  · rfl
  · exact Option.map_id'

theorem getElem?_finish (conns : List (Conn I)) (c k : Nat) : (finish conns c)[k]? =
    if c = k then conns[k]?.map (fun x => { x with queue := [], gone := true }) else conns[k]? := by
  rw [finish, List.getElem?_modify]
  split
  · rfl
  · exact Option.map_id'

/-- **A packet is written** on a connection that is open to it. -/
theorem Net.push (h : Net conns b) (hx : conns[c]? = some x) (hacked : x.acked = true) (hbye : .disconnect ∉ x.queue)
    (hp : packet ≠ .connect)
    (hlast : packet = .disconnect → ∀ t, b.session x.client = some t → t.conn = c → lastSaid t.told x.queue ≠ some .online) :
    Net (push conns c packet) b := by
  have hget := fun k => getElem?_push conns c k packet
  refine ⟨fun k y hy hnot hover => ?_, fun i t ht => ?_, fun k y hy hyes hover => ?_, h.noWill, h.backed⟩
  · rw [hget] at hy
    split at hy
    · next heq =>
      subst heq
      rw [hx] at hy
      cases hy
      exact absurd hacked (by rw [hnot]; simp)
    · exact h.fresh k y hy hnot hover
  · obtain ⟨y, hy, hclient, hyacked, hover⟩ := h.session i t ht
    rw [hget]
    split
    · exact ⟨{ y with queue := y.queue ++ [packet] }, by rw [hy]; rfl, hclient, hyacked, hover⟩
    · exact ⟨y, hy, hclient, hyacked, hover⟩
  · rw [hget] at hy
    split at hy
    · next heq =>
      subst heq
      rw [hx] at hy
      cases hy
      obtain ⟨t, ht, htc, hclean⟩ := h.live c x hx hacked hover
      exact ⟨t, ht, htc, hclean.snoc hbye hp fun heq => hlast heq t ht htc⟩
    · exact h.live k y hy hyes hover

/-- A connection is opened. -/
theorem Net.dial (h : Net conns b) (i : I) : Net (conns ++ [{ client := i, queue := [.connect], acked := false, gone := false }]) b where
  fresh := fun k y hy hnot hover => by
    rw [List.getElem?_append] at hy
    split at hy
    · exact h.fresh k y hy hnot hover
    · rw [List.getElem?_singleton] at hy
      split at hy <;> cases hy
      rfl
  session := fun i t ht => by
    obtain ⟨y, hy, hrest⟩ := h.session i t ht
    exact ⟨y, by rw [List.getElem?_append_left (List.getElem?_eq_some_iff.mp hy).1, hy], hrest⟩
  live := fun k y hy hyes hover => by
    rw [List.getElem?_append] at hy
    split at hy
    · exact h.live k y hy hyes hover
    · rw [List.getElem?_singleton] at hy
      split at hy <;> cases hy
      cases hyes
  noWill := h.noWill
  backed := h.backed

/-! ## What the broker does -/

theorem getElem?_accept (hx : conns[c]? = some x) (b : Topic I Status) (queue : List Packet) (k : Nat) : (accept conns b c x queue)[k]? =
    if c = k then some { x with queue := queue, acked := true }
    else if connOf b x.client = some k then conns[k]?.map (fun x => { x with queue := [], gone := true })
    else conns[k]? := by
  have hc := (List.getElem?_eq_some_iff.mp hx).1
  by_cases hck : c = k
  · subst hck
    rw [if_pos rfl, accept, List.getElem?_set_self]
    cases connOf b x.client with
    | none => exact hc
    | some old => simpa [finish] using hc
  · rw [if_neg hck, accept, List.getElem?_set_ne hck]
    cases hold : connOf b x.client with
    | none => simp
    | some old =>
      dsimp only
      rw [getElem?_finish]
      by_cases hk : old = k
      · rw [if_pos hk, if_pos (by rw [hk])]
      · rw [if_neg hk, if_neg (by simpa using hk)]

theorem connOf_eq_some : connOf b i = some k ↔ ∃ t, b.session i = some t ∧ t.conn = k := by
  simp [connOf, Option.map_eq_some_iff]

/-- A session of another client is on another connection than this one. -/
theorem Net.other (h : Net conns b) (hx : conns[c]? = some x) {i : I} {t : Session Status} (ht : b.session i = some t)
    (hi : i ≠ x.client) : t.conn ≠ c := by
  rintro rfl
  obtain ⟨y, hy, hclient, -, -⟩ := h.session i t ht
  rw [hx] at hy
  cases hy
  exact hi hclient.symm

theorem getElem?_read (hx : conns[c]? = some x) (queue : List Packet) (k : Nat) :
    (conns.set c { x with queue := queue })[k]? = if c = k then some { x with queue := queue } else conns[k]? := by
  rw [List.getElem?_set]
  have hc := (List.getElem?_eq_some_iff.mp hx).1
  by_cases hck : c = k
  · rw [if_pos hck, if_pos hck, if_pos (by omega)]
  · rw [if_neg hck, if_neg hck]

section

variable [DecidableEq I]

/-- **A CONNECT is read.** -/
theorem Net.accept (h : Net conns b) (hx : conns[c]? = some x) (hacked : x.acked = false) (hover : x.gone = false) :
    Net (accept conns b c x []) (b.connect x.client c .offline) ∧
      Later conns b (StatusWill.accept conns b c x []) (b.connect x.client c .offline) := by
  have hget := fun k => getElem?_accept hx b [] k
  -- the connection of another session is neither this one nor the one that is ended
  have hothers : ∀ i t, b.session i = some t → i ≠ x.client → t.conn ≠ c ∧ connOf b x.client ≠ some t.conn := by
    intro i t ht hi
    refine ⟨h.other hx ht hi, fun hold => ?_⟩
    obtain ⟨t', ht', hconn⟩ := connOf_eq_some.mp hold
    obtain ⟨y, hy, hclient, -, -⟩ := h.session i t ht
    obtain ⟨y', hy', hclient', -, -⟩ := h.session _ t' ht'
    rw [hconn, hy] at hy'
    cases hy'
    exact hi (hclient.symm.trans hclient')
  refine ⟨⟨fun k y hy hnot hyover => ?_, fun i t ht => ?_, fun k y hy hyes hyover => ?_, h.noWill.connect (by decide) _ _,
    h.backed.connect h.noWill _ _ _⟩, ⟨fun k y hy => ?_, fun k y y' hy hy' hyacked i t ht hconn => ?_⟩⟩
  · rw [hget] at hy
    split at hy
    · cases hy
      cases hnot
    · split at hy
      · obtain ⟨z, -, rfl⟩ := Option.map_eq_some_iff.mp hy
        cases hyover
      · exact h.fresh k y hy hnot hyover
  · by_cases hi : i = x.client
    · subst hi
      rw [Topic.session_connect_self] at ht
      cases ht
      exact ⟨{ x with queue := [], acked := true }, by rw [hget, if_pos rfl], rfl, rfl, hover⟩
    · rw [Topic.session_connect_other hi] at ht
      obtain ⟨hne, hold⟩ := hothers i t ht hi
      obtain ⟨y, hy, hrest⟩ := h.session i t ht
      exact ⟨y, by rw [hget, if_neg (Ne.symm hne), if_neg hold, hy], hrest⟩
  · rw [hget] at hy
    split at hy
    · next heq =>
      subst heq
      cases hy
      exact ⟨_, Topic.session_connect_self, rfl, trivial⟩
    · next hne =>
      split at hy
      · obtain ⟨z, -, rfl⟩ := Option.map_eq_some_iff.mp hy
        cases hyover
      · next hold =>
        obtain ⟨t, ht, htc, hclean⟩ := h.live k y hy hyes hyover
        have hi : y.client ≠ x.client := fun heq => hold (connOf_eq_some.mpr ⟨t, heq ▸ ht, htc⟩)
        exact ⟨t, by rw [Topic.session_connect_other hi, ht], htc, hclean⟩
  · rw [hget]
    by_cases hck : c = k
    · subst hck
      rw [hx] at hy
      cases hy
      exact ⟨_, if_pos rfl, fun _ => rfl, by simp, fun _ _ => rfl⟩
    · rw [if_neg hck, hy]
      by_cases hold : connOf b x.client = some k
      · exact ⟨_, if_pos hold, id, by simp, fun _ _ => rfl⟩
      · exact ⟨y, if_neg hold, id, fun p hp => hp, fun hno hyes => absurd hyes (by rw [hno]; simp)⟩
  · by_cases hi : i = x.client
    · subst hi
      rw [Topic.session_connect_self] at ht
      cases ht
      cases hconn
      rw [hx] at hy
      cases hy
      rw [hacked] at hyacked
      cases hyacked
    · rw [Topic.session_connect_other hi] at ht
      obtain ⟨hne, hold⟩ := hothers i t ht hi
      subst hconn
      rw [hget, if_neg (Ne.symm hne), if_neg hold, hy] at hy'
      cases hy'
      exact ⟨t, ht, rfl, rfl⟩
/-- **A status is read.** -/
theorem Net.say (h : Net conns b) (hx : conns[c]? = some x) (hqueue : x.queue = .publishStatus status :: queue) (hover : x.gone = false) :
    Net (conns.set c { x with queue := queue }) (b.publish x.client status) ∧
      Later conns b (conns.set c { x with queue := queue }) (b.publish x.client status) := by
  have hget := fun k => getElem?_read hx queue k
  have hacked : x.acked = true := by
    cases hno : x.acked with
    | true => rfl
    | false =>
      rw [h.fresh c x hx hno hover] at hqueue
      cases hqueue
  obtain ⟨t, ht, htc, hclean⟩ := h.live c x hx hacked hover
  rw [hqueue] at hclean
  refine ⟨⟨fun k y hy hnot hyover => ?_, fun i t' ht' => ?_, fun k y hy hyes hyover => ?_, h.noWill.publish _ _, h.backed.publish _ _⟩,
    ⟨fun k y hy => ?_, fun k y y' hy hy' hyacked i t' ht' hconn => ?_⟩⟩
  · rw [hget] at hy
    split at hy
    · cases hy
      exact absurd hacked (by rw [hnot]; simp)
    · exact h.fresh k y hy hnot hyover
  · by_cases hi : i = x.client
    · subst hi
      rw [Topic.session_publish_self ht] at ht'
      cases ht'
      exact ⟨{ x with queue := queue }, by rw [hget, if_pos htc.symm], rfl, hacked, hover⟩
    · rw [Topic.session_publish_other hi] at ht'
      obtain ⟨y, hy, hrest⟩ := h.session i t' ht'
      exact ⟨y, by rw [hget, if_neg (Ne.symm (h.other hx ht' hi)), hy], hrest⟩
  · rw [hget] at hy
    split at hy
    · next heq =>
      cases hy
      exact ⟨_, Topic.session_publish_self ht, htc.trans heq, hclean⟩
    · next hne =>
      obtain ⟨t', ht', htc', hclean'⟩ := h.live k y hy hyes hyover
      have hi : y.client ≠ x.client := by
        intro heq
        rw [heq, ht] at ht'
        cases ht'
        exact hne (htc.symm.trans htc')
      exact ⟨t', by rw [Topic.session_publish_other hi, ht'], htc', hclean'⟩
  · rw [hget]
    by_cases hck : c = k
    · subst hck
      rw [hx] at hy
      cases hy
      refine ⟨_, if_pos rfl, id, fun p hp => ?_, fun hno => absurd hacked (by rw [hno]; simp)⟩
      rw [hqueue]
      exact List.mem_cons_of_mem _ hp
    · exact ⟨y, by rw [if_neg hck, hy], id, fun p hp => hp, fun hno hyes => absurd hyes (by rw [hno]; simp)⟩
  · by_cases hi : i = x.client
    · subst hi
      rw [Topic.session_publish_self ht] at ht'
      cases ht'
      have hck : c = k := htc.symm.trans hconn
      subst hck
      rw [hget, if_pos rfl] at hy'
      rw [hx] at hy
      cases hy
      cases hy'
      exact ⟨t, ht, htc, by rw [hqueue]; rfl⟩
    · rw [Topic.session_publish_other hi] at ht'
      have hne := h.other hx ht' hi
      rw [hconn] at hne
      rw [hget, if_neg (Ne.symm hne), hy] at hy'
      cases hy'
      exact ⟨t', ht', hconn, rfl⟩

omit [DecidableEq I] in
/-- Something else is read. -/
theorem Net.pass (h : Net conns b) (hx : conns[c]? = some x) (hqueue : x.queue = .publish :: queue) :
    Net (conns.set c { x with queue := queue }) b ∧ Later conns b (conns.set c { x with queue := queue }) b := by
  have hget := fun k => getElem?_read hx queue k
  refine ⟨⟨fun k y hy hnot hyover => ?_, fun i t ht => ?_, fun k y hy hyes hyover => ?_, h.noWill, h.backed⟩,
    ⟨fun k y hy => ?_, fun k y y' hy hy' _ i t ht hconn => ⟨t, ht, hconn, ?_⟩⟩⟩
  · rw [hget] at hy
    split at hy
    · cases hy
      have hfresh := h.fresh c x hx hnot hyover
      rw [hqueue] at hfresh
      cases hfresh
    · exact h.fresh k y hy hnot hyover
  · obtain ⟨y, hy, hclient, hyes, hyover⟩ := h.session i t ht
    by_cases hck : c = t.conn
    · subst hck
      rw [hx] at hy
      cases hy
      exact ⟨{ x with queue := queue }, by rw [hget, if_pos rfl], hclient, hyes, hyover⟩
    · exact ⟨y, by rw [hget, if_neg hck, hy], hclient, hyes, hyover⟩
  · rw [hget] at hy
    split at hy
    · next heq =>
      cases hy
      obtain ⟨t, ht, htc, hclean⟩ := h.live c x hx hyes hyover
      rw [hqueue] at hclean
      exact ⟨t, ht, htc.trans heq, hclean⟩
    · exact h.live k y hy hyes hyover
  · rw [hget]
    by_cases hck : c = k
    · subst hck
      rw [hx] at hy
      cases hy
      refine ⟨_, if_pos rfl, id, fun p hp => ?_, fun hno hyes => absurd hyes (by rw [hno]; simp)⟩
      rw [hqueue]
      exact List.mem_cons_of_mem _ hp
    · exact ⟨y, by rw [if_neg hck, hy], id, fun p hp => hp, fun hno hyes => absurd hyes (by rw [hno]; simp)⟩
  · rw [hget] at hy'
    split at hy'
    · next heq =>
      subst heq
      rw [hx] at hy
      cases hy
      cases hy'
      rw [hqueue]
      rfl
    · rw [hy] at hy'
      cases hy'
      rfl

/-- **A connection is over**, and with it the session it is of: by a word, where
`online` has not been said last, or without. -/
theorem Net.finish (h : Net conns b) (hx : conns[c]? = some x) (hb' : b'.NoWill .online) (hbacked : b'.Backed .online)
    (hself : ∀ t, b'.session x.client = some t → t.conn ≠ c ∧ b.session x.client = some t)
    (hsame : ∀ i t, b.session i = some t → t.conn ≠ c → b'.session i = some t)
    (hother : ∀ i, i ≠ x.client → b'.session i = b.session i) :
    Net (finish conns c) b' ∧ Later conns b (StatusWill.finish conns c) b' := by
  have hget := fun k => getElem?_finish conns c k
  have hthere : ∀ i t, b'.session i = some t → t.conn ≠ c ∧ b.session i = some t := by
    intro i t ht
    by_cases hi : i = x.client
    · subst hi
      exact hself t ht
    · rw [hother i hi] at ht
      exact ⟨h.other hx ht hi, ht⟩
  refine ⟨⟨fun k y hy hnot hyover => ?_, fun i t ht => ?_, fun k y hy hyes hyover => ?_, hb', hbacked⟩,
    ⟨fun k y hy => ?_, fun k y y' hy hy' _ i t ht hconn => ?_⟩⟩
  · rw [hget] at hy
    split at hy
    · obtain ⟨z, -, rfl⟩ := Option.map_eq_some_iff.mp hy
      cases hyover
    · exact h.fresh k y hy hnot hyover
  · obtain ⟨hne, hb⟩ := hthere i t ht
    obtain ⟨y, hy, hrest⟩ := h.session i t hb
    exact ⟨y, by rw [hget, if_neg (Ne.symm hne), hy], hrest⟩
  · rw [hget] at hy
    split at hy
    · obtain ⟨z, -, rfl⟩ := Option.map_eq_some_iff.mp hy
      cases hyover
    · next hne =>
      obtain ⟨t, ht, htc, hclean⟩ := h.live k y hy hyes hyover
      exact ⟨t, hsame _ t ht fun heq => hne (heq.symm.trans htc), htc, hclean⟩
  · rw [hget]
    by_cases hck : c = k
    · exact ⟨{ y with queue := [], gone := true }, by rw [if_pos hck, hy]; rfl, id, by simp, fun _ _ => rfl⟩
    · exact ⟨y, by rw [if_neg hck, hy], id, fun p hp => hp, fun hno hyes => absurd hyes (by rw [hno]; simp)⟩
  · obtain ⟨hne, hb⟩ := hthere i t ht
    subst hconn
    rw [hget, if_neg (Ne.symm hne), hy] at hy'
    cases hy'
    exact ⟨t, hb, rfl, rfl⟩

/-- **A DISCONNECT is read.** -/
theorem Net.bye (h : Net conns b) (hx : conns[c]? = some x) (hqueue : x.queue = .disconnect :: queue) (hover : x.gone = false) :
    Net (StatusWill.finish conns c) (b.disconnect x.client) ∧ Later conns b (StatusWill.finish conns c) (b.disconnect x.client) := by
  have hacked : x.acked = true := by
    cases hno : x.acked with
    | true => rfl
    | false =>
      rw [h.fresh c x hx hno hover] at hqueue
      cases hqueue
  obtain ⟨t, ht, htc, hclean⟩ := h.live c x hx hacked hover
  rw [hqueue] at hclean
  refine h.finish hx (h.noWill.disconnect _) (h.backed.disconnect fun t' ht' => ?_) (fun t' ht' => ?_) (fun i t' ht' hne => ?_)
    fun i hi => Topic.session_disconnect_other hi
  · rw [ht] at ht'
    cases ht'
    exact hclean.1
  · rw [Topic.session_disconnect_self] at ht'
    cases ht'
  · have hi : i ≠ x.client := by
      rintro rfl
      rw [ht] at ht'
      cases ht'
      exact hne htc
    rw [Topic.session_disconnect_other hi, ht']

/-- **A connection ends** without a word. -/
theorem Net.lose (h : Net conns b) (hx : conns[c]? = some x) :
    let b' := if connOf b x.client = some c then b.lose x.client else b
    Net (StatusWill.finish conns c) b' ∧ Later conns b (StatusWill.finish conns c) b' := by
  intro b'
  by_cases hconn : connOf b x.client = some c
  · have hb' : b' = b.lose x.client := if_pos hconn
    obtain ⟨t, ht, htc⟩ := connOf_eq_some.mp hconn
    rw [hb']
    refine h.finish hx (h.noWill.lose _) (h.backed.lose h.noWill _) (fun t' ht' => ?_) (fun i t' ht' hne => ?_)
      fun i hi => Topic.session_lose_other hi
    · rw [Topic.session_lose_self] at ht'
      cases ht'
    · have hi : i ≠ x.client := by
        rintro rfl
        rw [ht] at ht'
        cases ht'
        exact hne htc
      rw [Topic.session_lose_other hi, ht']
  · have hb' : b' = b := if_neg hconn
    rw [hb']
    exact h.finish hx h.noWill h.backed (fun t ht => ⟨fun htc => hconn (connOf_eq_some.mpr ⟨t, ht, htc⟩), ht⟩)
      (fun i t ht _ => ht) fun i _ => rfl

omit [DecidableEq I] in
/-- **What the broker does** keeps it all. -/
theorem Inv.broker (h : Inv s) (hnet : Net conns' b' ∧ Later s.conns s.topic conns' b') : Inv { s with conns := conns', topic := b' } where
  net := hnet.1
  proc := fun p hp => (h.proc p hp).later hnet.2

theorem Inv.deliver (h : Inv s) (hs : step s (.deliver c) = some s') : Inv s' := by
  simp only [step] at hs
  split at hs
  · next x hx =>
    split at hs
    · next packet queue hqueue =>
      split at hs
      · cases hs
      · next hover =>
        have hover : x.gone = false := by simpa using hover
        cases hs
        cases packet with
        | connect =>
          have hnot : x.acked = false := by
            cases hyes : x.acked with
            | false => rfl
            | true =>
              obtain ⟨t, -, -, hclean⟩ := h.net.live c x hx hyes hover
              rw [hqueue] at hclean
              exact hclean.elim
          have hnil : queue = [] := by
            have hfresh := h.net.fresh c x hx hnot hover
            rw [hqueue] at hfresh
            exact (List.cons.inj hfresh).2
          subst hnil
          exact h.broker (h.net.accept hx hnot hover)
        | publishStatus status => exact h.broker (h.net.say hx hqueue hover)
        | publish => exact h.broker (h.net.pass hx hqueue)
        | disconnect => exact h.broker (h.net.bye hx hqueue hover)
    · cases hs
  · cases hs

theorem Inv.lose (h : Inv s) (hs : step s (.lose c) = some s') : Inv s' := by
  simp only [step] at hs
  split at hs
  · next x hx =>
    split at hs
    · cases hs
    · cases hs
      exact h.broker (h.net.lose hx)
  · cases hs

end

/-! ## What the process does -/

/-- A process without a socket that waits for nothing. -/
theorem ProcOk.idle (hsock : p.sock = none) (hjob : ∀ j, p.job = some j → j.waiting = none) : ProcOk conns b p where
  sock := fun c hc => by
    rw [hsock] at hc
    cases hc
  waiting := fun j c hj hc => by
    rw [hjob j hj] at hc
    cases hc
  quiet := fun _ => hjob
  told := fun _ _ c x hc => by
    rw [hsock] at hc
    cases hc

/-- **An error** leaves no socket. -/
theorem ProcOk.fail (hsock : p.sock = none) : ProcOk conns b (p.fail j) := by
  rw [Proc.fail]
  split
  · exact .idle hsock fun j hj => by cases hj
  · refine .idle hsock fun j hj => ?_
    cases hj
    rfl

/-- `online` goes out once the broker has let the client in. -/
theorem Inv.ack (h : Inv s) (hp : s.proc = some p) (hs : p.step s .ack = some s') : Inv s' := by
  have hproc := h.proc p hp
  simp only [Proc.step] at hs
  split at hs
  · next j hj =>
    split at hs
    · next c hc =>
      split at hs
      · next hacked =>
        cases hs
        obtain ⟨-, x, hx, hempty⟩ := hproc.waiting j c hj hc
        have hacked : x.acked = true := by simpa [hx] using hacked
        have hqueue := hempty hacked
        have hbye : .disconnect ∉ x.queue := by simp [hqueue]
        have hnot : p.phase ≠ .told := by
          intro hphase
          rw [hproc.quiet hphase j hj] at hc
          cases hc
        have hsock : ∀ c', some c = some c' → ∃ x' : Conn I, (push s.conns c (.publishStatus .online))[c']? = some x' ∧ x'.acked = true ∧
            .disconnect ∉ x'.queue := by
          intro c' hc'
          cases hc'
          refine ⟨{ x with queue := x.queue ++ [.publishStatus .online] }, ?_, hacked, ?_⟩
          · rw [getElem?_push, if_pos rfl, hx]
            rfl
          · simp [hqueue]
        refine ⟨h.net.push hx hacked hbye (by decide) (fun heq => by cases heq), fun q hq => ?_⟩
        cases hq
        split
        · next hcall =>
          refine ⟨hsock, (fun j c hj => by cases hj), (fun _ j hj => by cases hj), fun hphase => ?_⟩
          simp [Proc.done, Phase.after, hcall] at hphase
        · refine ⟨hsock, fun j c hj hc => ?_, fun hphase => absurd hphase hnot, fun hphase => absurd hphase hnot⟩
          cases hj
          cases hc
      · cases hs
    · cases hs
  · cases hs

theorem Inv.onlineFail (h : Inv s) (hp : s.proc = some p) (hs : p.step s .onlineFail = some s') : Inv s' := by
  have hproc := h.proc p hp
  simp only [Proc.step] at hs
  split at hs
  · next j hj =>
    split at hs
    · next c hc =>
      split at hs
      · next hacked =>
        cases hs
        obtain ⟨hsock, x, hx, hempty⟩ := hproc.waiting j c hj hc
        have hacked : x.acked = true := by simpa [hx] using hacked
        refine ⟨h.net, fun q hq => ?_⟩
        cases hq
        split
        · next hcall =>
          refine ⟨fun c' hc' => ?_, (fun j c hj => by cases hj), (fun _ j hj => by cases hj), fun hphase => ?_⟩
          · cases hc'
            exact ⟨x, hx, hacked, by rw [hempty hacked]; simp⟩
          · simp [Proc.done, Phase.after, hcall] at hphase
        · exact .fail hsock
      · cases hs
    · cases hs
  · cases hs

/-- **A packet goes out**: what `publish_offline` sends is what is said last from then on. -/
theorem Inv.write (h : Inv s) (hp : s.proc = some p) (hs : p.step s .write = some s') : Inv s' := by
  have hproc := h.proc p hp
  simp only [Proc.step] at hs
  split at hs
  · next j c hj hc =>
    split at hs
    · next packet hpacket =>
      split at hs
      · cases hs
      · next hbroken =>
        cases hs
        obtain ⟨x, hx, hacked, hbye⟩ := hproc.sock c hc
        have hconnect : packet ≠ .connect := by
          rintro rfl
          cases hcall : j.call <;> simp [Call.packet, hcall] at hpacket
        have hdisconnect : packet ≠ .disconnect := by
          rintro rfl
          cases hcall : j.call <;> simp [Call.packet, hcall] at hpacket
        have hget := fun k => getElem?_push s.conns c k packet
        refine ⟨h.net.push hx hacked hbye hconnect (fun heq => absurd heq hdisconnect), fun q hq => ?_⟩
        cases hq
        refine ⟨fun c' hc' => ?_, (fun j c hj => by cases hj), (fun _ j hj => by cases hj), fun hphase _ c' x' hc' hx' i t ht htc => ?_⟩
        · cases hc.symm.trans hc'
          refine ⟨{ x with queue := x.queue ++ [packet] }, by rw [hget, if_pos rfl, hx]; rfl, hacked, fun hmem => ?_⟩
          obtain hmem | hmem := List.mem_append.mp hmem
          · exact hbye hmem
          · exact hdisconnect (List.mem_singleton.mp hmem).symm
        · cases hc.symm.trans hc'
          rw [hget, if_pos rfl, hx] at hx'
          cases hx'
          cases hcall : j.call with
          | connect => simp [Call.packet, hcall] at hpacket
          | publish =>
            have hsame : packet = .publish := by simpa [Call.packet, hcall] using hpacket.symm
            have hwas : p.phase = .told := by simpa [Proc.done, Phase.after, hcall] using hphase
            have hlast := hproc.told hwas (by simpa using hbroken) c x hc hx i t ht htc
            rw [hsame]
            exact (lastSaid_snoc _ _ _).trans hlast
          | publishOffline =>
            have hsame : packet = .publishStatus .offline := by simpa [Call.packet, hcall] using hpacket.symm
            rw [hsame]
            exact lastSaid_snoc _ _ _
    · cases hs
  · cases hs

/-- **`close`** after `publish_offline`: the DISCONNECT comes after `offline`. -/
theorem Inv.close (h : Inv s) (hp : s.proc = some p) (hs : p.step s .close = some s') : Inv s' := by
  have hproc := h.proc p hp
  simp only [Proc.step] at hs
  split at hs
  · next c hj hc =>
    split at hs
    · next hcond =>
      obtain ⟨hphase, hbroken⟩ := hcond
      cases hs
      obtain ⟨x, hx, hacked, hbye⟩ := hproc.sock c hc
      refine ⟨h.net.push hx hacked hbye (by decide) fun _ t ht htc => ?_, fun q hq => ?_⟩
      · rw [hproc.told hphase hbroken c x hc hx _ t ht htc]
        decide
      · cases hq
        exact .idle rfl fun j hj' => by rw [hj] at hj'; cases hj'
    · cases hs
  · cases hs

/-- **A step of the process** keeps it all. -/
theorem Inv.process (h : Inv s) (hp : s.proc = some p) (hquiet : Quiet s a) (hs : p.step s a = some s') : Inv s' := by
  have hproc := h.proc p hp
  cases a with
  | start i => cases hs
  | deliver c => cases hs
  | lose c => cases hs
  | exit =>
    cases hs
    exact ⟨h.net, fun q hq => by cases hq⟩
  | call k =>
    simp only [Proc.step] at hs
    split at hs
    · split at hs
      · cases hs
        refine ⟨h.net, fun q hq => ?_⟩
        cases hq
        refine ⟨hproc.sock, fun j c hj hc => ?_, fun _ j hj => ?_, hproc.told⟩
        · cases hj
          cases hc
        · cases hj
          rfl
      · cases hs
    · cases hs
  | dial =>
    simp only [Proc.step] at hs
    split at hs
    · next j hj hsock =>
      split at hs
      · cases hs
        have hphase : p.phase ≠ .told := by
          simpa [Quiet, hp] using hquiet
        refine ⟨h.net.dial _, fun q hq => ?_⟩
        cases hq
        refine ⟨fun c hc => ?_, fun j c hj hc => ⟨hsock, ?_⟩, fun ht => absurd ht hphase, fun ht => absurd ht hphase⟩
        · exact absurd (hsock.symm.trans hc) (by simp)
        · cases hj
          cases hc
          exact ⟨_, List.getElem?_concat_length .., fun hacked => by cases hacked⟩
      · cases hs
    · cases hs
  | dialFail =>
    simp only [Proc.step] at hs
    split at hs
    · next j hj hsock =>
      split at hs
      · cases hs
        refine ⟨h.net, fun q hq => ?_⟩
        cases hq
        exact .fail hsock
      · cases hs
    · cases hs
  | ack => exact h.ack hp hs
  | ackFail =>
    simp only [Proc.step] at hs
    split at hs
    · next j hj =>
      split at hs
      · next hwaiting =>
        obtain ⟨c, hc⟩ := Option.isSome_iff_exists.mp hwaiting
        cases hs
        refine ⟨h.net, fun q hq => ?_⟩
        cases hq
        exact .fail (hproc.waiting j c hj hc).1
      · cases hs
    · cases hs
  | onlineFail => exact h.onlineFail hp hs
  | write => exact h.write hp hs
  | writeFail =>
    simp only [Proc.step] at hs
    split at hs
    · cases hs
      refine ⟨h.net, fun q hq => ?_⟩
      cases hq
      exact .fail rfl
    · cases hs
  | close => exact h.close hp hs
  | closeFail =>
    simp only [Proc.step] at hs
    split at hs
    · next hcond =>
      cases hs
      refine ⟨h.net, fun q hq => ?_⟩
      cases hq
      exact .idle rfl fun j hj => by
        have hnone : p.job = none := by simpa using hcond.1
        cases hnone.symm.trans hj
    · cases hs

/-! ## Any run -/

section

variable [DecidableEq I]

/-- **A step** keeps it all. -/
theorem Inv.step (h : Inv s) (hquiet : Quiet s a) (hs : step s a = some s') : Inv s' := by
  have hprocess : ∀ a, Quiet s a → (match s.proc with | some p => p.step s a | none => none) = some s' → Inv s' := by
    intro a hquiet hs
    split at hs
    · next p hp => exact h.process hp hquiet hs
    · cases hs
  cases a with
  | start i =>
    simp only [StatusWill.step] at hs
    split at hs
    · cases hs
      refine ⟨h.net, fun q hq => ?_⟩
      cases hq
      exact .idle rfl fun j hj => by cases hj
    · cases hs
  | deliver c => exact h.deliver hs
  | lose c => exact h.lose hs
  | exit => exact hprocess .exit hquiet hs
  | call k => exact hprocess (.call k) hquiet hs
  | dial => exact hprocess .dial hquiet hs
  | dialFail => exact hprocess .dialFail hquiet hs
  | ack => exact hprocess .ack hquiet hs
  | ackFail => exact hprocess .ackFail hquiet hs
  | onlineFail => exact hprocess .onlineFail hquiet hs
  | write => exact hprocess .write hquiet hs
  | writeFail => exact hprocess .writeFail hquiet hs
  | close => exact hprocess .close hquiet hs
  | closeFail => exact hprocess .closeFail hquiet hs

omit [DecidableEq I] in
theorem inv_start {retained : Option Status} (h : retained ≠ some .online) : Inv (start retained : State I) where
  net := ⟨by simp [start], by simp [start], by simp [start], (fun i t ht => by cases ht), fun heq => absurd heq h⟩
  proc := fun p hp => by cases hp

/-! ## One client id -/

/-- All processes have this client id. -/
def Only (id : I) (_ : State I) : Action I → Prop
  | .start i => i = id
  | _ => True

structure OneId (id : I) (s : State I) : Prop where
  conns : ∀ (c : Nat) (x : Conn I), s.conns[c]? = some x → x.client = id
  proc : ∀ p, s.proc = some p → p.clientId = id
  shown : s.topic.Shown .online id

omit [DecidableEq I] in
theorem clientId_fail : (p.fail j).clientId = p.clientId := by
  rw [Proc.fail]
  split <;> rfl

omit [DecidableEq I] in
theorem client_push (h : (push conns c packet)[k]? = some x) : ∃ y, conns[k]? = some y ∧ y.client = x.client := by
  rw [getElem?_push] at h
  split at h
  · obtain ⟨y, hy, rfl⟩ := Option.map_eq_some_iff.mp h
    exact ⟨y, hy, rfl⟩
  · exact ⟨x, h, rfl⟩

omit [DecidableEq I] in
theorem client_finish (h : (finish conns c)[k]? = some x) : ∃ y, conns[k]? = some y ∧ y.client = x.client := by
  rw [getElem?_finish] at h
  split at h
  · obtain ⟨y, hy, rfl⟩ := Option.map_eq_some_iff.mp h
    exact ⟨y, hy, rfl⟩
  · exact ⟨x, h, rfl⟩

omit [DecidableEq I] in
/-- The process leaves the broker alone, and opens connections of its own. -/
theorem process_frame (hs : p.step s a = some s') : s'.topic = s.topic ∧ (∀ q, s'.proc = some q → q.clientId = p.clientId) ∧
    ∀ (k : Nat) (x : Conn I), s'.conns[k]? = some x → (∃ y, s.conns[k]? = some y ∧ y.client = x.client) ∨ x.client = p.clientId := by
  have hsame : ∀ (k : Nat) (x : Conn I), s.conns[k]? = some x → (∃ y, s.conns[k]? = some y ∧ y.client = x.client) ∨ x.client = p.clientId :=
    fun k x hx => .inl ⟨x, hx, rfl⟩
  cases a with
  | start i => cases hs
  | deliver c => cases hs
  | lose c => cases hs
  | exit =>
    cases hs
    exact ⟨rfl, fun q hq => (by cases hq), hsame⟩
  | call k =>
    simp only [Proc.step] at hs
    repeat' split at hs
    all_goals cases hs
    exact ⟨rfl, fun q hq => (by cases hq; rfl), hsame⟩
  | dial =>
    simp only [Proc.step] at hs
    repeat' split at hs
    all_goals cases hs
    refine ⟨rfl, fun q hq => (by cases hq; rfl), fun k x hx => ?_⟩
    rw [List.getElem?_append] at hx
    split at hx
    · exact hsame k x hx
    · rw [List.getElem?_singleton] at hx
      split at hx <;> cases hx
      exact .inr rfl
  | ack =>
    simp only [Proc.step] at hs
    repeat' split at hs
    all_goals cases hs
    all_goals exact ⟨rfl, fun q hq => (by cases hq; rfl), fun k x hx => .inl (client_push hx)⟩
  | onlineFail =>
    simp only [Proc.step] at hs
    repeat' split at hs
    all_goals cases hs
    · exact ⟨rfl, fun q hq => (by cases hq; rfl), hsame⟩
    · exact ⟨rfl, fun q hq => (by cases hq; exact clientId_fail), hsame⟩
  | write =>
    simp only [Proc.step] at hs
    repeat' split at hs
    all_goals cases hs
    exact ⟨rfl, fun q hq => (by cases hq; rfl), fun k x hx => .inl (client_push hx)⟩
  | close =>
    simp only [Proc.step] at hs
    repeat' split at hs
    all_goals cases hs
    exact ⟨rfl, fun q hq => (by cases hq; rfl), fun k x hx => .inl (client_push hx)⟩
  | closeFail =>
    simp only [Proc.step] at hs
    repeat' split at hs
    all_goals cases hs
    exact ⟨rfl, fun q hq => (by cases hq; rfl), hsame⟩
  | dialFail | ackFail | writeFail =>
    simp only [Proc.step] at hs
    repeat' split at hs
    all_goals cases hs
    exact ⟨rfl, fun q hq => (by cases hq; exact clientId_fail), hsame⟩

/-- The broker keeps whose a connection is. -/
theorem OneId.step {id : I} (h : OneId id s) (ha : Only id s a) (hs : step s a = some s') : OneId id s' := by
  have hprocess : (match s.proc with | some p => p.step s a | none => none) = some s' → OneId id s' := by
    intro hs
    split at hs
    · next p hp =>
      obtain ⟨htopic, hproc, hconns⟩ := process_frame hs
      refine ⟨fun k x hx => ?_, fun q hq => (hproc q hq).trans (h.proc p hp), htopic ▸ h.shown⟩
      obtain ⟨y, hy, hclient⟩ | hclient := hconns k x hx
      · exact hclient.symm.trans (h.conns k y hy)
      · exact hclient.trans (h.proc p hp)
    · cases hs
  cases a with
  | start i =>
    simp only [StatusWill.step] at hs
    split at hs
    · cases hs
      refine ⟨h.conns, fun q hq => ?_, h.shown⟩
      cases hq
      exact ha
    · cases hs
  | lose c =>
    simp only [StatusWill.step] at hs
    split at hs
    · next x hx =>
      split at hs
      · cases hs
      · cases hs
        refine ⟨fun k y hy => ?_, h.proc, ?_⟩
        · obtain ⟨z, hz, hclient⟩ := client_finish hy
          exact hclient.symm.trans (h.conns k z hz)
        · dsimp only
          rw [h.conns c x hx]
          split
          · exact h.shown.lose
          · exact h.shown
    · cases hs
  | deliver c =>
    simp only [StatusWill.step] at hs
    split at hs
    · next x hx =>
      split at hs
      · next packet queue hqueue =>
        split at hs
        · cases hs
        · cases hs
          have hclient := h.conns c x hx
          have hread : ∀ (k : Nat) (y : Conn I), (s.conns.set c { x with queue := queue })[k]? = some y → y.client = id := by
            intro k y hy
            rw [getElem?_read hx] at hy
            split at hy
            · cases hy
              exact hclient
            · exact h.conns k y hy
          cases packet with
          | connect =>
            refine ⟨fun k y hy => ?_, h.proc, hclient ▸ (hclient ▸ h.shown : s.topic.Shown .online x.client).connect _ _⟩
            simp only [read] at hy
            rw [getElem?_accept hx] at hy
            split at hy
            · cases hy
              exact hclient
            · split at hy
              · obtain ⟨z, hz, rfl⟩ := Option.map_eq_some_iff.mp hy
                exact h.conns k z hz
              · exact h.conns k y hy
          | publishStatus status =>
            exact ⟨hread, h.proc, hclient ▸ (hclient ▸ h.shown : s.topic.Shown .online x.client).publish _⟩
          | publish => exact ⟨hread, h.proc, h.shown⟩
          | disconnect =>
            refine ⟨fun k y hy => ?_, h.proc, hclient ▸ (hclient ▸ h.shown : s.topic.Shown .online x.client).disconnect⟩
            obtain ⟨z, hz, hz'⟩ := client_finish hy
            exact hz'.symm.trans (h.conns k z hz)
      · cases hs
    · cases hs
  | exit | call | dial | dialFail | ack | ackFail | onlineFail | write | writeFail | close | closeFail => exact hprocess hs

/-- **The status topic.** In every run in which no worker opens a connection between
`publish_offline` and `close`: where the topic says `online`, a session is connected
that has said it last; so once all connections are over it does not. And where all
processes have one client id, it says `online` as long as there is such a session. -/
theorem status_retained {retained : Option Status} {as : List (Action I)} (hretained : retained ≠ some .online)
    (hquiet : Meets step Quiet (start retained) as) (hr : run step (start retained) as = some s) :
    (s.topic.retained = some .online → ∃ i t x, s.topic.session i = some t ∧ t.told = some .online ∧
      s.conns[t.conn]? = some x ∧ x.client = i ∧ x.gone = false) ∧
    ((∀ x ∈ s.conns, x.gone = true) → s.topic.retained ≠ some .online) ∧
    ∀ id, (∀ i, .start i ∈ as → i = id) →
      (s.topic.retained = some .online ↔ ∃ t, s.topic.session id = some t ∧ t.told = some .online) := by
  have hinv : Inv s := run_invariant (I := Inv) (fun s a s' hquiet hi hs => hi.step hquiet hs) hquiet (inv_start hretained) hr
  have hbacked : s.topic.retained = some .online → ∃ i t x, s.topic.session i = some t ∧ t.told = some .online ∧
      s.conns[t.conn]? = some x ∧ x.client = i ∧ x.gone = false := by
    intro honline
    obtain ⟨i, t, ht, htold⟩ := hinv.net.backed honline
    obtain ⟨x, hx, hclient, -, hover⟩ := hinv.net.session i t ht
    exact ⟨i, t, x, ht, htold, hx, hclient, hover⟩
  refine ⟨hbacked, fun hover honline => ?_, fun id hid => ?_⟩
  · obtain ⟨i, t, x, -, -, hx, -, hnot⟩ := hbacked honline
    rw [hover x (List.mem_of_getElem? hx)] at hnot
    cases hnot
  · have hmeets : Meets step (Only id) (start retained) as := by
      refine meets_of_mem fun a ha s => ?_
      cases a with
      | start i => exact hid i ha
      | _ => exact trivial
    have hone : OneId id (start retained : State I) := ⟨by simp [start], (fun q hq => by cases hq), fun k _ => rfl, (fun t ht => by cases ht)⟩
    have hshown := (run_invariant (I := OneId id) (fun s a s' ha hi hs => hi.step ha hs) hmeets hone hr).shown
    constructor
    · intro honline
      obtain ⟨i, t, -, ht, htold, -⟩ := hbacked honline
      have hi : i = id := by
        by_contra hne
        rw [hshown.only i hne] at ht
        cases ht
      exact ⟨t, hi ▸ ht, htold⟩
    · rintro ⟨t, ht, htold⟩
      exact hshown.shown t ht htold

end

/-- A process connects, publishes, and is stopped; the broker reads all of it. -/
def stopped : List (Action Nat) :=
  [.start 1, .call .connect, .dial, .deliver 0, .ack, .deliver 0, .call .publish, .write, .call .publishOffline, .write, .close, .exit,
    .deliver 0, .deliver 0, .deliver 0]

theorem status_retained_stopped : ∃ s, run step (start none) stopped = some s ∧ (∀ x ∈ s.conns, x.gone = true) ∧
    s.topic.retained ≠ some .online :=
  have hover : ∀ x ∈ ((run step (start none) stopped).getD (start none)).conns, x.gone = true := by decide
  have hretained : (none : Option Status) ≠ some .online := by decide
  have hquiet : Meets step Quiet (start none) stopped := by decide
  ⟨_, rfl, hover, (status_retained hretained hquiet rfl).2.1 hover⟩

/-- A worker that is still there opens a connection between `publish_offline` and
`close`: it is over by a DISCONNECT, and `online` is left. -/
example : (run step (start none)
    [.start 1, .call .connect, .dial, .deliver 0, .ack, .deliver 0, .call .publishOffline, .write, .deliver 0, .lose 0,
      .call .publish, .writeFail, .dial, .deliver 1, .ack, .write, .close, .exit, .deliver 1, .deliver 1, .deliver 1]).map
    (fun s => (s.topic.retained, s.conns.map (·.gone))) = some (some .online, [true, true]) := by decide

/-- A process comes back under another client id: the connection of the one before
is given up later, and its will is left. -/
example : (run step (start none)
    [.start 1, .call .connect, .dial, .deliver 0, .ack, .deliver 0, .exit,
      .start 2, .call .connect, .dial, .deliver 1, .ack, .deliver 1, .lose 0]).map
    (fun s => (s.topic.retained, (s.topic.session 2).map (·.told))) = some (some .offline, some (some .online)) := by decide

end RetailVision.StatusWill
