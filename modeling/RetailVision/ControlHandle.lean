/-
`ControlPlane.handle` (`vision_base/control.py`): the checks of a command's
schema and target, the acks that are kept for the last request ids, and the ack
of a command. What the operations do is a parameter, on a world of their own;
they may raise.

What is called a run here is the commands of one `ControlPlane` in order. Left
out: the log.
-/
import RetailVision.ControlPlane
import RetailVision.Lib.Lru

set_option linter.all false

namespace RetailVision.ControlHandle

open RetailVision.Lib
open RetailVision.Config (Py getD)
open RetailVision.Supervisor (Command validateParams)

/-- The arguments of a call of `handle`, but for the operations. -/
structure Received where
  req : Json
  sessionId : String
  nowMs : Int

/-- What an operation comes to. -/
inductive Outcome
  /-- it returns, `null` standing for `None` -/
  | applied (applied : Json)
  | commandError (text : String)
  /-- any other exception, by its type's name and its text -/
  | exception (typeName text : String)

/-- An `OrderedDict` is the list of its items. -/
structure Plane where
  deviceId : String
  seenSize : Nat
  seen : List (String × Json)

def Plane.init (deviceId : String) (seenSize : Nat) : Plane where
  deviceId := deviceId
  seenSize := seenSize
  seen := []

/-- `COMMANDS`, as `handle` looks a command up. -/
def commandOf : Json → Option Command
  | .str "add_stream" => some .addStream
  | .str "remove_stream" => some .removeStream
  | .str "set_threshold" => some .setThreshold
  | .str "list_streams" => some .listStreams
  | _ => none

def isStr (s : String) : Json → Bool
  | .str t => t == s
  | _ => false

/-- The id of a request that is for this device, and has one. -/
def requestIdOf (deviceId : String) (req : Json) : Option String :=
  if req.isObject = false then none
  else if isStr "vb.command/1" (getD req "schema" .null) = false ∨ isStr deviceId (getD req "device_id" .null) = false then
    none
  else match req.find "request_id" with
    | some (.str requestId) => if requestId = "" then none else some requestId
    | _ => none

/-- `build_ack` of an outcome. -/
def buildAck (r : Received) (deviceId requestId : String) (outcome : Outcome) : Json :=
  let head := [
    ("schema", .str "vb.ack/1"),
    ("timestamp", .int r.nowMs),
    ("session_id", .str r.sessionId),
    ("device_id", .str deviceId),
    ("request_id", .str requestId),
    ("command", getD r.req "command" .null)]
  .obj (head ++ match outcome with
    | .applied applied => [("ok", .bool true), ("applied", if applied.isNull then .obj [] else applied)]
    | .commandError text => [("ok", .bool false), ("error", .str text)]
    | .exception typeName text => [("ok", .bool false), ("error", .str (typeName ++ ": " ++ text))])

/-- `ack["timestamp"] = now_ms` -/
def withTimestamp (nowMs : Int) : Json → Json
  | .obj kvs => .obj (Json.setMember "timestamp" (.int nowMs) kvs)
  | ack => ack

variable {ω : Type}

section

variable (py : Py) (ops : Command → Json → ω → ω × Outcome)

/-- The `try` of `handle`. -/
def execute (req : Json) (w : ω) : ω × Outcome :=
  let command := getD req "command" .null
  match commandOf command with
  | none => (w, .commandError ("unknown command: " ++ py.repr command))
  | some c =>
    let params := getD req "params" .null
    match validateParams c params with
    | .error text => (w, .commandError text)
    | .ok () => ops c params w

/-- `move_to_end` -/
def moveToEnd (requestId : String) (seen : List (String × Json)) : List (String × Json) :=
  seen.filter (·.1 ≠ requestId) ++ seen.filter (·.1 = requestId)

/-- A new item, and the first one out if there is one too many. -/
def store (seenSize : Nat) (requestId : String) (ack : Json) (seen : List (String × Json)) : List (String × Json) :=
  let seen := seen ++ [(requestId, ack)]
  if seenSize < seen.length then seen.tail else seen

def handle (p : Plane) (w : ω) (r : Received) : Plane × ω × Option Json :=
  match requestIdOf p.deviceId r.req with
  | none => (p, w, none)
  | some requestId =>
    match p.seen.find? (·.1 = requestId) with
    | some (_, stored) =>
      ({ p with seen := moveToEnd requestId p.seen }, w, some (withTimestamp r.nowMs stored))
    | none =>
      let (w, outcome) := execute py ops r.req w
      let ack := buildAck r p.deviceId requestId outcome
      ({ p with seen := store p.seenSize requestId ack p.seen }, w, some ack)

/-- The plane and the world after commands in order. -/
def after : Plane × ω → List Received → Plane × ω
  | pw, [] => pw
  | (p, w), r :: rs => after ((handle py ops p w r).1, (handle py ops p w r).2.1) rs

end

/-- The command comes to the operations, or to the checks before them. -/
def Executes (p : Plane) (r : Received) : Prop :=
  ∃ requestId, requestIdOf p.deviceId r.req = some requestId ∧ requestId ∉ p.seen.map (·.1)

variable {py : Py} {ops : Command → Json → ω → ω × Outcome} {p : Plane} {w w₀ : ω} {r c : Received} {rs : List Received}
  {requestId deviceId : String} {seenSize : Nat} {ack : Json} {seen : List (String × Json)}

/-! ## Acks -/

/-- An ack echoes the id of its command. -/
def Echoes (requestId : String) (ack : Json) : Prop :=
  (∃ kvs, ack = .obj kvs) ∧ ack.find "request_id" = some (.str requestId)

theorem buildAck_echoes {outcome : Outcome} : Echoes requestId (buildAck r deviceId requestId outcome) := ⟨⟨_, rfl⟩, rfl⟩

/-- The timestamp of an ack, and nothing else of it, is the new one. -/
theorem find_withTimestamp {kvs : List (String × Json)} {nowMs : Int} {key : String} :
    (withTimestamp nowMs (.obj kvs)).find key = if key = "timestamp" then some (.int nowMs) else (Json.obj kvs).find key := by
  rw [withTimestamp]
  split
  next hkey =>
    rw [hkey]
    exact Json.find_setMember_self
  next hkey => exact Json.find_setMember_ne hkey

theorem withTimestamp_echoes {nowMs : Int} (h : Echoes requestId ack) : Echoes requestId (withTimestamp nowMs ack) := by
  obtain ⟨⟨kvs, rfl⟩, hid⟩ := h
  refine ⟨⟨_, rfl⟩, ?_⟩
  rw [find_withTimestamp, if_neg (by decide), hid]

/-! ## One command -/

theorem handle_other (h : requestIdOf p.deviceId r.req = none) : handle py ops p w r = (p, w, none) := by
  simp only [handle, h]

/-- A command is answered from what is kept, or it is executed. -/
theorem handle_cases (h : requestIdOf p.deviceId r.req = some requestId) :
    (∃ stored, (requestId, stored) ∈ p.seen ∧ handle py ops p w r =
      ({ p with seen := moveToEnd requestId p.seen }, w, some (withTimestamp r.nowMs stored))) ∨
    requestId ∉ p.seen.map (·.1) ∧ ∃ ack, Echoes requestId ack ∧ handle py ops p w r =
      ({ p with seen := store p.seenSize requestId ack p.seen }, (execute py ops r.req w).1, some ack) := by
  cases hf : p.seen.find? (·.1 = requestId) with
  | some item =>
    obtain ⟨key, stored⟩ := item
    obtain rfl : key = requestId := by simpa using List.find?_some hf
    exact .inl ⟨stored, List.mem_of_find?_eq_some hf, by simp only [handle, h, hf]⟩
  | none =>
    refine .inr ⟨fun hmem => ?_, buildAck r p.deviceId requestId (execute py ops r.req w).2, buildAck_echoes,
      by simp only [handle, h, hf]⟩
    obtain ⟨item, hitem, hid⟩ := List.mem_map.mp hmem
    simpa [hid] using List.find?_eq_none.mp hf item hitem

theorem executes_iff (h : requestIdOf p.deviceId r.req = some requestId) : Executes p r ↔ requestId ∉ p.seen.map (·.1) := by
  simp [Executes, h]

@[simp] theorem handle_deviceId : (handle py ops p w r).1.deviceId = p.deviceId := by
  simp only [handle]
  split
  · rfl
  · split <;> rfl

@[simp] theorem handle_seenSize : (handle py ops p w r).1.seenSize = p.seenSize := by
  simp only [handle]
  split
  · rfl
  · split <;> rfl

/-! ## The acks that are kept -/

theorem keys_moveToEnd (hn : (seen.map (·.1)).Nodup) (hk : requestId ∈ seen.map (·.1)) :
    (moveToEnd requestId seen).map (·.1) = touch (seen.map (·.1)) requestId := by
  have hone : (seen.map (·.1)).filter (· = requestId) = [requestId] := by
    rw [List.filter_eq, hn.count, if_pos hk]
    rfl
  rw [List.filter_map] at hone
  have hothers : (seen.filter (·.1 ≠ requestId)).map (·.1) = (seen.map (·.1)).filter (· ≠ requestId) := by
    rw [List.filter_map]
    rfl
  rw [moveToEnd, List.map_append, touch, hothers]
  exact congrArg _ hone

theorem mem_moveToEnd {item : String × Json} : item ∈ moveToEnd requestId seen ↔ item ∈ seen := by
  by_cases hid : item.1 = requestId <;> simp [moveToEnd, hid]

theorem keys_store : (store seenSize requestId ack seen).map (·.1) =
    if seenSize < (seen.map (·.1) ++ [requestId]).length then (seen.map (·.1) ++ [requestId]).tail
    else seen.map (·.1) ++ [requestId] := by
  simp only [store, List.length_append, List.length_map, List.length_singleton]
  split <;> simp [List.map_tail]

theorem mem_store {item : String × Json} (h : item ∈ store seenSize requestId ack seen) :
    item ∈ seen ∨ item = (requestId, ack) := by
  have hmem : item ∈ seen ++ [(requestId, ack)] := by
    simp only [store] at h
    split at h
    · exact List.mem_of_mem_tail h
    · exact h
  simpa using hmem

/-! ## Runs -/

/-- The ids of the commands that are handled, in order. -/
def handled (deviceId : String) (rs : List Received) : List String := rs.filterMap fun r => requestIdOf deviceId r.req

theorem handled_snoc : handled deviceId (rs ++ [r]) = handled deviceId rs ++ (requestIdOf deviceId r.req).toList := by
  cases h : requestIdOf deviceId r.req <;> simp [handled, h]

theorem after_snoc {pw : Plane × ω} : after py ops pw (rs ++ [r]) =
    ((handle py ops (after py ops pw rs).1 (after py ops pw rs).2 r).1,
      (handle py ops (after py ops pw rs).1 (after py ops pw rs).2 r).2.1) := by
  induction rs generalizing pw with
  | nil => rfl
  | cons r' rs ih => exact ih

/-- Of the commands `before ++ c :: between`, `c` was the last one with its id
that was executed, and `ack` was its ack. -/
structure LastExecuted (py : Py) (ops : Command → Json → ω → ω × Outcome) (pw : Plane × ω) (requestId : String) (ack : Json)
    (before : List Received) (c : Received) (between : List Received) : Prop where
  id_eq : requestIdOf pw.1.deviceId c.req = some requestId
  executed : Executes (after py ops pw before).1 c
  answered : (handle py ops (after py ops pw before).1 (after py ops pw before).2 c).2.2 = some ack
  last : ∀ b₁ c' b₂, between = b₁ ++ c' :: b₂ → requestIdOf pw.1.deviceId c'.req = some requestId →
    ¬ Executes (after py ops pw (before ++ c :: b₁)).1 c'

/-- After commands in order: the ids of the acks that are kept are those handled
last, and each ack that is kept is that of the last execution. -/
structure Kept (py : Py) (ops : Command → Json → ω → ω × Outcome) (pw : Plane × ω) (rs : List Received) : Prop where
  deviceId : (after py ops pw rs).1.deviceId = pw.1.deviceId
  seenSize : (after py ops pw rs).1.seenSize = pw.1.seenSize
  holds : Holds pw.1.seenSize (handled pw.1.deviceId rs) ((after py ops pw rs).1.seen.map (·.1))
  echoes : ∀ item ∈ (after py ops pw rs).1.seen, Echoes item.1 item.2
  stored : ∀ item ∈ (after py ops pw rs).1.seen, ∃ before c between, rs = before ++ c :: between ∧
    LastExecuted py ops pw item.1 item.2 before c between

theorem kept_nil {pw : Plane × ω} (h : pw.1.seen = []) : Kept py ops pw [] where
  deviceId := rfl
  seenSize := rfl
  holds := by
    rw [after, h]
    exact .empty
  echoes item hitem := by
    rw [after, h] at hitem
    cases hitem
  stored item hitem := by
    rw [after, h] at hitem
    cases hitem

namespace LastExecuted

variable {pw : Plane × ω} {before between : List Received}

/-- It still is, after a command that is not an execution for this id. -/
theorem snoc (h : LastExecuted py ops pw requestId ack before c between)
    (hr : requestIdOf pw.1.deviceId r.req = some requestId → ¬ Executes (after py ops pw (before ++ c :: between)).1 r) :
    LastExecuted py ops pw requestId ack before c (between ++ [r]) where
  id_eq := h.id_eq
  executed := h.executed
  answered := h.answered
  last b₁ c' b₂ he hid := by
    cases b₂ using List.reverseRecOn with
    | nil =>
      obtain ⟨rfl, hc⟩ := List.append_inj' he rfl
      cases hc
      exact hr hid
    | append_singleton b₂ x =>
      rw [← List.cons_append, ← List.append_assoc] at he
      obtain ⟨hbetween, _⟩ := List.append_inj' he rfl
      exact h.last b₁ c' b₂ hbetween hid

/-- An execution is the last one when it is made. -/
theorem self (hid : requestIdOf pw.1.deviceId c.req = some requestId) (hx : Executes (after py ops pw before).1 c)
    (ha : (handle py ops (after py ops pw before).1 (after py ops pw before).2 c).2.2 = some ack) :
    LastExecuted py ops pw requestId ack before c [] :=
  ⟨hid, hx, ha, fun b₁ c' b₂ he => by simp at he⟩

end LastExecuted

/-- **What is kept, one command on.** -/
theorem Kept.snoc {pw : Plane × ω} (h : Kept py ops pw rs) (r : Received) : Kept py ops pw (rs ++ [r]) := by
  obtain ⟨hdevice, hsize, hholds, hechoes, hstored⟩ := h
  cases hid : requestIdOf pw.1.deviceId r.req with
  | none =>
    have hsame : after py ops pw (rs ++ [r]) = after py ops pw rs := by
      rw [after_snoc, handle_other (hdevice ▸ hid)]
    refine ⟨hsame ▸ hdevice, hsame ▸ hsize, ?_, hsame ▸ hechoes, ?_⟩
    · rw [handled_snoc, hid, hsame]
      simpa using hholds
    · rw [hsame]
      intro item hitem
      obtain ⟨before, c, between, rfl, hl⟩ := hstored item hitem
      exact ⟨before, c, between ++ [r], by simp, hl.snoc fun hr => by rw [hid] at hr; cases hr⟩
  | some requestId =>
    have hid' : requestIdOf (after py ops pw rs).1.deviceId r.req = some requestId := hdevice ▸ hid
    have hexecutes := executes_iff hid'
    have hdevice' : (after py ops pw (rs ++ [r])).1.deviceId = pw.1.deviceId := by
      rw [after_snoc, handle_deviceId, hdevice]
    have hsize' : (after py ops pw (rs ++ [r])).1.seenSize = pw.1.seenSize := by
      rw [after_snoc, handle_seenSize, hsize]
    obtain ⟨stored, hmem, he⟩ | ⟨hnew, ack, hecho, he⟩ := @handle_cases ω py ops _ (after py ops pw rs).2 r requestId hid'
    · have hkey : requestId ∈ (after py ops pw rs).1.seen.map (·.1) := List.mem_map_of_mem hmem
      have hseen : (after py ops pw (rs ++ [r])).1.seen = moveToEnd requestId (after py ops pw rs).1.seen := by
        rw [after_snoc, he]
      refine ⟨hdevice', hsize', ?_, ?_, ?_⟩
      · rw [handled_snoc, hid, hseen, keys_moveToEnd hholds.nodup hkey]
        exact hholds.hit hkey
      · rw [hseen]
        exact fun item hitem => hechoes item (mem_moveToEnd.mp hitem)
      · rw [hseen]
        intro item hitem
        obtain ⟨before, c, between, rfl, hl⟩ := hstored item (mem_moveToEnd.mp hitem)
        exact ⟨before, c, between ++ [r], by simp, hl.snoc fun _ hx => hexecutes.mp hx hkey⟩
    · have hseen : (after py ops pw (rs ++ [r])).1.seen = store pw.1.seenSize requestId ack (after py ops pw rs).1.seen := by
        rw [after_snoc, he, hsize]
      refine ⟨hdevice', hsize', ?_, ?_, ?_⟩
      · rw [handled_snoc, hid, hseen, keys_store]
        exact hholds.miss hnew
      · rw [hseen]
        intro item hitem
        obtain hitem | rfl := mem_store hitem
        · exact hechoes item hitem
        · exact hecho
      · rw [hseen]
        intro item hitem
        obtain hitem | rfl := mem_store hitem
        · obtain ⟨before, c, between, rfl, hl⟩ := hstored item hitem
          refine ⟨before, c, between ++ [r], by simp, hl.snoc fun hr => ?_⟩
          rw [hid, Option.some.injEq] at hr
          exact absurd (hr ▸ List.mem_map_of_mem hitem) hnew
        · exact ⟨rs, r, [], rfl, .self hid (hexecutes.mpr hnew) (by rw [he])⟩

theorem kept {pw : Plane × ω} (h : pw.1.seen = []) (rs : List Received) : Kept py ops pw rs := by
  induction rs using List.reverseRecOn with
  | nil => exact kept_nil h
  | append_singleton rs r ih => exact ih.snoc r

/-- **At most once.** After any commands `rs`, of the next one: it is not for
this device and has no ack, or it has one, with its id. If it is executed, any
earlier command with its id was followed by `seenSize` other ids at least. If it
is not, the operations are not called, and its ack is that of the last
execution for its id, with a timestamp of its own. -/
theorem at_most_once (py : Py) (ops : Command → Json → ω → ω × Outcome) (deviceId : String) (seenSize : Nat) (w₀ : ω)
    (rs : List Received) (r : Received) {p : Plane} {w : ω} (hrun : after py ops (.init deviceId seenSize, w₀) rs = (p, w)) :
    p.seen.length ≤ seenSize ∧
    (requestIdOf deviceId r.req = none → handle py ops p w r = (p, w, none)) ∧
    ∀ requestId, requestIdOf deviceId r.req = some requestId →
      (∃ ack, (handle py ops p w r).2.2 = some ack ∧ ack.find "request_id" = some (.str requestId)) ∧
      (Executes p r → ∀ before c between, rs = before ++ c :: between → requestIdOf deviceId c.req = some requestId →
        requestId ∉ handled deviceId between → seenSize ≤ (handled deviceId between).dedup.length) ∧
      (¬ Executes p r → (handle py ops p w r).2.1 = w ∧ ∃ before c between ack, rs = before ++ c :: between ∧
        LastExecuted py ops (.init deviceId seenSize, w₀) requestId ack before c between ∧
        (handle py ops p w r).2.2 = some (withTimestamp r.nowMs ack)) := by
  obtain ⟨hdevice, hsize, hholds, hechoes, hstored⟩ := @kept ω py ops (.init deviceId seenSize, w₀) rfl rs
  rw [hrun] at hdevice hholds hechoes hstored
  replace hdevice : p.deviceId = deviceId := hdevice
  have hbounded : (p.seen.map (·.1)).length ≤ seenSize := hholds.bounded
  refine ⟨by simpa using hbounded, fun hnone => handle_other (hdevice ▸ hnone), fun requestId hid => ?_⟩
  have hid' : requestIdOf p.deviceId r.req = some requestId := hdevice ▸ hid
  refine ⟨?_, fun hx before c between he hc hnot => ?_, fun hx => ?_⟩
  · obtain ⟨stored, hmem, he⟩ | ⟨_, ack, hecho, he⟩ := @handle_cases ω py ops p w r requestId hid'
    · exact ⟨_, by rw [he], (withTimestamp_echoes (hechoes _ hmem)).2⟩
    · exact ⟨ack, by rw [he], hecho.2⟩
  · have hlost : requestId ∉ p.seen.map (·.1) := (executes_iff hid').mp hx
    have hsplit : handled deviceId rs = handled deviceId before ++ requestId :: handled deviceId between := by
      rw [he, handled, List.filterMap_append, List.filterMap_cons, hc]
      rfl
    have hholds' : Holds seenSize (handled deviceId before ++ requestId :: handled deviceId between) (p.seen.map (·.1)) :=
      hsplit ▸ hholds
    exact hholds'.lost hlost hnot
  · obtain ⟨stored, hmem, he⟩ | ⟨hnew, _⟩ := @handle_cases ω py ops p w r requestId hid'
    · obtain ⟨before, c, between, hrs, hl⟩ := hstored _ hmem
      exact ⟨by rw [he], before, c, between, stored, hrs, hl, by rw [he]⟩
    · exact absurd ((executes_iff hid').mpr hnew) hx

/-- Integers as they are, and no text of a value. -/
def plainPy : Py where
  toFloat i := some (.fin i)
  sub a _ := a
  repr _ := ""

/-- A list of the streams, asked for under an id. -/
def listRequest (requestId : String) : Json :=
  .obj [("schema", .str "vb.command/1"), ("device_id", .str "cam"), ("request_id", .str requestId),
    ("command", .str "list_streams"), ("params", .obj [])]

/-- Operations that are counted, and give nothing back. -/
def countingOps (_ : Command) (_ : Json) (calls : Nat) : Nat × Outcome := (calls + 1, .applied .null)

/-- A command and its redelivery. -/
theorem at_most_once_redelivered :
    (after plainPy countingOps (.init "cam" 256, 0) [⟨listRequest "r1", "s", 1⟩, ⟨listRequest "r1", "s", 2⟩]).2 = 1 ∧
      ∃ ack, (handle plainPy countingOps (after plainPy countingOps (.init "cam" 256, 0) [⟨listRequest "r1", "s", 1⟩]).1 1
        ⟨listRequest "r1", "s", 2⟩).2.2 = some ack ∧ ack.find "request_id" = some (.str "r1") :=
  ⟨rfl, ((at_most_once plainPy countingOps "cam" 256 0 [⟨listRequest "r1", "s", 1⟩] ⟨listRequest "r1", "s", 2⟩ rfl).2.2
    "r1" rfl).1⟩

end RetailVision.ControlHandle
