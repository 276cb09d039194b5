/-
The packets that the MQTT client of the base writes (`vision_base/mqtt.py`).
A string goes into a packet as its UTF-8, behind a length of two bytes, so not
every string does: one with a surrogate in it has no UTF-8, and one of more
than 65535 bytes no length (`encStr_ok_iff`).
-/
import RetailVision.MqttFraming
import Mathlib.Algebra.Order.Ring.Nat

set_option linter.all false

namespace RetailVision.MqttClient

open Lib MqttFraming

/-- A `str`: code points, surrogates among them. -/
abbrev Str := List (Fin 0x110000)

/-- What is raised, other than an `OSError`. -/
inductive Raised
  | unicodeEncodeError
  | structError
  | valueError (text : String)
  deriving DecidableEq

def Surrogate (c : Fin 0x110000) : Prop := 0xD800 ≤ c.val ∧ c.val ≤ 0xDFFF

instance (c : Fin 0x110000) : Decidable (Surrogate c) := inferInstanceAs (Decidable (_ ∧ _))

/-- The UTF-8 of a code point that is no surrogate. -/
def codePoint (c : Fin 0x110000) : Bytes :=
  let n := c.val
  if n < 0x80 then [.ofNat n]
  else if n < 0x800 then [.ofNat (0xC0 + n / 0x40), .ofNat (0x80 + n % 0x40)]
  else if n < 0x10000 then [.ofNat (0xE0 + n / 0x1000), .ofNat (0x80 + n / 0x40 % 0x40), .ofNat (0x80 + n % 0x40)]
  else [.ofNat (0xF0 + n / 0x40000), .ofNat (0x80 + n / 0x1000 % 0x40), .ofNat (0x80 + n / 0x40 % 0x40), .ofNat (0x80 + n % 0x40)]

/-- `encode("utf-8")` -/
def encode (s : Str) : Except Raised Bytes :=
  if s.any fun c => Surrogate c then .error .unicodeEncodeError else .ok (s.flatMap codePoint)

/-- `struct.pack(">H", n)` -/
def packH (n : Nat) : Except Raised Bytes :=
  if n ≤ 65535 then .ok [.ofNat (n / 256), .ofNat (n % 256)] else .error .structError

/-- `_enc_str` of bytes -/
def encBytes (b : Bytes) : Except Raised Bytes := do
  let len ← packH b.length
  return len ++ b

/-- `_enc_str` -/
def encStr (s : Str) : Except Raised Bytes := do
  let b ← encode s
  encBytes b

/-- A packet of a first byte and a body. -/
def packet (first : UInt8) (body : Bytes) : Bytes := [first] ++ encLen body.length ++ body

structure Will where
  topic : Str
  payload : Bytes
  qos : Int
  retain : Bool

/-- The arguments of a client that the packets and the slots depend on. -/
structure Settings where
  clientId : Str
  username : Str
  password : Str
  keepaliveS : Int
  will : Option Will
  maxInflight : Nat

/-- `min(1, max(0, qos))` -/
def clampQos (qos : Int) : UInt8 := .ofNat (min 1 (max 0 qos)).toNat

/-- The flags of a CONNECT: clean session, the will and the login. -/
def connectFlags (c : Settings) : UInt8 :=
  let flags : UInt8 := 0x02
  let flags : UInt8 := match c.will with
    | some w => flags ||| 0x04 ||| (clampQos w.qos <<< (3 : UInt8)) ||| (if w.retain then (0x20 : UInt8) else 0)
    | none => flags
  if c.username ≠ [] then flags ||| 0x80 ||| (if c.password ≠ [] then (0x40 : UInt8) else 0) else flags

/-- The fields of a CONNECT for the will. -/
def encodeWill : Option Will → Except Raised Bytes
  | some w => do
    let topic ← encStr w.topic
    let payload ← encBytes w.payload
    return topic ++ payload
  | none => .ok []

/-- Its fields for the login. -/
def encodeLogin (username password : Str) : Except Raised Bytes :=
  if username = [] then .ok []
  else if password = [] then encStr username
  else do
    let username ← encStr username
    let password ← encStr password
    return username ++ password

/-- `_encode_connect` -/
def encodeConnect (c : Settings) : Except Raised Bytes := do
  let name ← encBytes (utf8 "MQTT")
  let keepalive ← packH (max 1 c.keepaliveS).toNat
  let clientId ← encStr c.clientId
  let will ← encodeWill c.will
  let login ← encodeLogin c.username c.password
  return packet 0x10 (name ++ [4] ++ [connectFlags c] ++ keepalive ++ clientId ++ will ++ login)

/-- The packet id of a PUBLISH, which one of QoS 0 has not. -/
def publishId (qos pid : Nat) : Except Raised Bytes := if qos > 0 then packH pid else .ok []

/-- `_encode_publish` -/
def encodePublish (topic : Str) (payload : Bytes) (qos pid : Nat) (retain : Bool) : Except Raised Bytes := do
  let flags : UInt8 := (if qos = 1 then 0x02 else 0) ||| (if retain then 0x01 else 0)
  let body ← encStr topic
  let id ← publishId qos pid
  return packet (0x30 ||| flags) (body ++ id ++ payload)

/-- The SUBSCRIBE of `_send_subscribe` and `_subscribe_inline`. -/
def encodeSubscribe (pid : Nat) (topicFilter : Str) (qos : Int) : Except Raised Bytes := do
  let id ← packH pid
  let filter ← encStr topicFilter
  return packet 0x82 (id ++ filter ++ [clampQos qos])

/-- The type of a packet. -/
def ptype (pkt : Bytes) : UInt8 := pkt.headD 0 >>> 4

variable {s topic : Str} {b pkt payload : Bytes} {n qos pid : Nat} {retain : Bool} {c : Settings}

/-! ## Which strings go into a packet -/

/-- The bytes a code point takes. -/
def utf8Size (c : Fin 0x110000) : Nat :=
  if c.val < 0x80 then 1 else if c.val < 0x800 then 2 else if c.val < 0x10000 then 3 else 4

/-- The string has a UTF-8 of at most 65535 bytes. -/
def Fits (s : Str) : Prop := (∀ c ∈ s, ¬ Surrogate c) ∧ (s.map utf8Size).sum ≤ 65535

instance (s : Str) : Decidable (Fits s) :=
  decidable_of_iff ((s.all fun c => !decide (Surrogate c)) = true ∧ (s.map utf8Size).sum ≤ 65535) (by simp [Fits])

theorem length_codePoint (c : Fin 0x110000) : (codePoint c).length = utf8Size c := by
  unfold codePoint utf8Size
  dsimp only
  split
  · rfl
  split
  · rfl
  split
  · rfl
  · rfl

theorem length_flatMap_codePoint : (s.flatMap codePoint).length = (s.map utf8Size).sum := by
  rw [List.length_flatMap]
  simp only [length_codePoint]

/-- What is encoded in steps is encoded when each of them is. -/
theorem bind_ok {α β : Type} {x : Except Raised α} {f : α → Except Raised β} {r : β} :
    (do let a ← x; f a) = .ok r ↔ ∃ a, x = .ok a ∧ f a = .ok r := by
  cases x <;> simp [bind, Except.bind]

theorem packH_ok_iff : (∃ b, packH n = .ok b) ↔ n ≤ 65535 := by
  unfold packH
  split
  · next h => simp [h]
  · next h => simp [h]

theorem encBytes_ok_iff : (∃ b', encBytes b = .ok b') ↔ b.length ≤ 65535 := by
  rw [← packH_ok_iff]
  constructor
  · rintro ⟨b', h⟩
    obtain ⟨len, hlen, -⟩ := bind_ok.mp h
    exact ⟨len, hlen⟩
  · rintro ⟨len, hlen⟩
    exact ⟨_, bind_ok.mpr ⟨len, hlen, rfl⟩⟩

theorem encode_ok : encode s = .ok b ↔ (∀ c ∈ s, ¬ Surrogate c) ∧ b = s.flatMap codePoint := by
  unfold encode
  split
  · next h =>
    obtain ⟨c, hm, hc⟩ := List.any_eq_true.mp h
    refine ⟨fun he => (by cases he), fun ⟨hno, _⟩ => absurd (of_decide_eq_true hc) (hno c hm)⟩
  · next h =>
    have hno : ∀ c ∈ s, ¬ Surrogate c := fun c hm hc => h (List.any_eq_true.mpr ⟨c, hm, decide_eq_true hc⟩)
    refine ⟨fun he => ⟨hno, ?_⟩, fun ⟨_, he⟩ => he ▸ rfl⟩
    cases he
    rfl

/-- **A string goes into a packet exactly when it fits.** -/
theorem encStr_ok_iff : (∃ b, encStr s = .ok b) ↔ Fits s := by
  constructor
  · rintro ⟨b, h⟩
    obtain ⟨bytes, hbytes, hb⟩ := bind_ok.mp h
    obtain ⟨hno, rfl⟩ := encode_ok.mp hbytes
    have hlen := encBytes_ok_iff.mp ⟨b, hb⟩
    rw [length_flatMap_codePoint] at hlen
    exact ⟨hno, hlen⟩
  · rintro ⟨hno, hlen⟩
    rw [← length_flatMap_codePoint] at hlen
    obtain ⟨b, hb⟩ := encBytes_ok_iff.mpr hlen
    exact ⟨b, bind_ok.mpr ⟨_, encode_ok.mpr ⟨hno, rfl⟩, hb⟩⟩

theorem publishId_ok (hp : pid ≤ 65535) : ∃ b, publishId qos pid = .ok b := by
  unfold publishId
  split
  · exact packH_ok_iff.mpr hp
  · exact ⟨_, rfl⟩

/-- A publish can be encoded when its topic fits. -/
theorem encodePublish_ok_iff (hp : pid ≤ 65535) : (∃ pkt, encodePublish topic payload qos pid retain = .ok pkt) ↔ Fits topic := by
  rw [← encStr_ok_iff]
  constructor
  · rintro ⟨pkt, h⟩
    obtain ⟨body, hbody, -⟩ := bind_ok.mp h
    exact ⟨body, hbody⟩
  · rintro ⟨body, hbody⟩
    obtain ⟨id, hid⟩ := @publishId_ok qos pid hp
    exact ⟨_, bind_ok.mpr ⟨body, hbody, bind_ok.mpr ⟨id, hid, rfl⟩⟩⟩

theorem ptype_packet {first : UInt8} : ptype (packet first b) = first >>> 4 := rfl

/-- A CONNECT is of type 1. -/
theorem ptype_connect (h : encodeConnect c = .ok pkt) : ptype pkt = 1 := by
  obtain ⟨name, -, h⟩ := bind_ok.mp h
  obtain ⟨keepalive, -, h⟩ := bind_ok.mp h
  obtain ⟨clientId, -, h⟩ := bind_ok.mp h
  obtain ⟨will, -, h⟩ := bind_ok.mp h
  obtain ⟨login, -, h⟩ := bind_ok.mp h
  cases h
  rw [ptype_packet]
  decide

end RetailVision.MqttClient
