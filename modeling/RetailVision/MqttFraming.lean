/-
The packets of an MQTT stream, as the two clients take them off what has come
in: `mqtt_take_packet` of `vb/src/out/mqtt_frame.h` and `_try_parse` of
`vision_base/mqtt.py`. Both read a length of at most four bytes and look at
their limit before they wait for the body (`takePacket_eq`, `tryParse_eq`), so
the packets do not depend on how the stream was cut, and those that were sent
come out (`packets_framed`).
-/
import RetailVision.Nlohmann
import RetailVision.Lib.Framing

set_option linter.all false

namespace RetailVision.MqttFraming

open Lib

/-! ## Lengths -/

/-- `remaining_length` -/
def remainingLength (n : Nat) : Bytes :=
  if n / 128 > 0 then (UInt8.ofNat (n % 128) ||| 0x80) :: remainingLength (n / 128) else [UInt8.ofNat (n % 128)]
termination_by n
decreasing_by omega

/-- `_enc_len` -/
def encLen (n : Nat) : Bytes :=
  if n / 128 ≠ 0 then (UInt8.ofNat (n % 128) ||| 0x80) :: encLen (n / 128) else [UInt8.ofNat (n % 128)]
termination_by n
decreasing_by omega

/-- What the bytes of a length come to: more of them, too many, or a length
with the position after it. -/
inductive Length
  | more
  | malformed
  | len (n i : Nat)
  deriving DecidableEq

/-- The loop of `mqtt_take_packet` over the bytes from `i` on. The length stays
below `2 ^ 28`. -/
def lengthLoop : Bytes → (i digits len mult : Nat) → Length
  | [], _, _, _, _ => .more
  | d :: rest, i, digits, len, mult =>
    let len := len + (d &&& 0x7f).toNat * mult
    if digits + 1 = 4 then
      if d &&& 0x80 ≠ 0 then .malformed else .len len (i + 1)
    else if d &&& 0x80 = 0 then .len len (i + 1)
    else lengthLoop rest (i + 1) (digits + 1) len (mult * 128)

/-- The loop of `_try_parse` over the bytes from `i` on. -/
def decodeLoop : Bytes → (i val mult : Nat) → Length
  | [], _, _, _ => .more
  | d :: rest, i, val, mult =>
    let val := val + (d &&& 0x7F).toNat * mult
    if d &&& 0x80 = 0 then .len val (i + 1)
    else if i + 1 > 4 then .malformed
    else decodeLoop rest (i + 1) val (mult * 128)

/-! ## Packets -/

/-- A packet of `mqtt_take_packet`. -/
structure Frame where
  type : UInt8
  body : Bytes
  deriving DecidableEq

/-- `kMqttMaxInboundPacket` -/
def mqttMaxInboundPacket : Nat := 65536

/-- `mqtt_take_packet`, with `MqttFrame::Malformed` as what is bad. -/
def mqttTakePacket (buf : Bytes) : Taken UInt8 Frame Unit :=
  let avail := buf.length
  if avail < 2 then .more
  else match lengthLoop (buf.drop 1) 1 0 0 1 with
    | .more => .more
    | .malformed => .bad ()
    | .len len i =>
      if len > mqttMaxInboundPacket then .bad ()
      else
        let total := i + len
        if avail < total then .more
        else .got { type := buf.headD 0 >>> 4, body := (buf.drop i).take len } (buf.drop total)

/-- What `_try_parse` raises. -/
inductive Raised
  | osError (text : String)
  | protocolError (text : String)
  deriving DecidableEq

/-- A packet of `_try_parse`. -/
structure Packet where
  ptype : UInt8
  flags : UInt8
  body : Bytes
  deriving DecidableEq

/-- `MAX_INBOUND_PACKET` -/
def maxInboundPacket : Nat := 4 * 1024 * 1024

/-- `MAX_RX_BUFFER` -/
def maxRxBuffer : Nat := maxInboundPacket + 5

/-- `_try_parse` of `_rx_buf` -/
def tryParse (buf : Bytes) : Taken UInt8 Packet Raised :=
  if buf.length < 2 then .more
  else match decodeLoop (buf.drop 1) 1 0 1 with
    | .more => .more
    | .malformed => .bad (.osError "malformed remaining length")
    | .len val i =>
      let total := i + val
      if total > maxInboundPacket then
        .bad (.protocolError ("inbound packet too large: " ++ toString total ++ " bytes"))
      else if buf.length < total then
        if buf.length > maxRxBuffer then .bad (.protocolError "receive buffer overflow") else .more
      else .got {
          ptype := buf.headD 0 >>> 4
          flags := buf.headD 0 &&& 0x0F
          body := (buf.drop i).take val } (buf.drop total)

/-! ## Lengths, there and back -/

variable {l more : Bytes} {i j digits len mult n : Nat}

theorem encLen_eq : encLen n = remainingLength n := by
  induction n using Nat.strongRecOn with
  | ind n ih =>
    rw [encLen, remainingLength]
    by_cases hn : n / 128 = 0
    · rw [if_neg (not_not.mpr hn), if_neg (by omega)]
    · rw [if_pos hn, if_pos (by omega), ih (n / 128) (by omega)]

/-- The two loops read alike: `i` is one more than the digits that were read. -/
theorem decodeLoop_eq (hdigits : digits < 4) : decodeLoop l (digits + 1) len mult = lengthLoop l (digits + 1) digits len mult := by
  induction l generalizing digits len mult with
  | nil => rfl
  | cons d l ih =>
    rw [decodeLoop, lengthLoop]
    by_cases hlast : digits + 1 = 4
    · rw [if_pos hlast]
      by_cases hd : d &&& 0x80 = 0
      · rw [if_pos hd, if_neg (not_not.mpr hd)]
      · rw [if_neg hd, if_pos (by omega), if_pos hd]
    · rw [if_neg hlast]
      by_cases hd : d &&& 0x80 = 0
      · rw [if_pos hd, if_pos hd]
      · rw [if_neg hd, if_neg (by omega), if_neg hd, ih (by omega)]

/-- More bytes after a length do not change it. -/
theorem lengthLoop_append (h : lengthLoop l i digits len mult ≠ .more) :
    lengthLoop (l ++ more) i digits len mult = lengthLoop l i digits len mult := by
  induction l generalizing i digits len mult with
  | nil => exact absurd rfl h
  | cons d l ih =>
    rw [List.cons_append, lengthLoop, lengthLoop]
    rw [lengthLoop] at h
    split
    · rfl
    · next hlast =>
      rw [if_neg hlast] at h
      split
      · rfl
      · next hd =>
        rw [if_neg hd] at h
        exact ih h

/-- The position after a length is behind at least one byte. -/
theorem lengthLoop_len (h : lengthLoop l i digits len mult = .len n j) : i < j := by
  induction l generalizing i digits len mult with
  | nil => cases h
  | cons d l ih =>
    rw [lengthLoop] at h
    split at h
    · split at h
      · cases h
      · cases h
        exact Nat.lt_succ_self i
    · split at h
      · cases h
        exact Nat.lt_succ_self i
      · exact Nat.lt_trans (Nat.lt_succ_self i) (ih h)

theorem digit_low : ∀ m < 128, (UInt8.ofNat m &&& 0x7f).toNat = m ∧ UInt8.ofNat m &&& 0x80 = 0 := by decide

theorem digit_more : ∀ m < 128,
    ((UInt8.ofNat m ||| 0x80) &&& 0x7f).toNat = m ∧ (UInt8.ofNat m ||| 0x80) &&& 0x80 ≠ 0 := by decide

/-- **A length is read as it was written**, if four bytes are enough for it. -/
theorem lengthLoop_remainingLength (hdigits : digits < 4) (hn : n < 128 ^ (4 - digits)) :
    lengthLoop (remainingLength n ++ more) i digits len mult =
      .len (len + n * mult) (i + (remainingLength n).length) := by
  induction n using Nat.strongRecOn generalizing i digits len mult with
  | ind n ih =>
    have hmod : n % 128 < 128 := Nat.mod_lt n (by decide)
    rw [remainingLength]
    by_cases hmore : n / 128 > 0
    · obtain ⟨hlow, hhigh⟩ := digit_more (n % 128) hmod
      have hlast : ¬ digits + 1 = 4 := by
        intro he
        have hone : 4 - digits = 1 := by omega
        rw [hone, Nat.pow_one] at hn
        omega
      have hpow : 128 ^ (4 - digits) = 128 ^ (4 - (digits + 1)) * 128 := by
        rw [← Nat.pow_succ]
        congr 1
        omega
      have hsum : len + n % 128 * mult + n / 128 * (mult * 128) = len + n * mult := by
        have hdiv : n * mult = n % 128 * mult + n / 128 * (mult * 128) := by
          conv => lhs; rw [← Nat.mod_add_div n 128, Nat.add_mul]
          rw [Nat.mul_comm 128 (n / 128), Nat.mul_assoc, Nat.mul_comm 128 mult]
        rw [hdiv, Nat.add_assoc]
      rw [if_pos hmore, List.cons_append, lengthLoop, hlow, if_neg hlast, if_neg hhigh,
        ih (n / 128) (by omega) (by omega) (by omega), hsum, List.length_cons]
      congr 1
      omega
    · obtain ⟨hlow, hhigh⟩ := digit_low (n % 128) hmod
      have hsmall : n % 128 = n := by omega
      rw [if_neg hmore, List.cons_append, lengthLoop, hlow, hhigh, hsmall]
      simp

/-! ## Both readers -/

section

variable {ρ ε : Type} {limit : Nat → Nat → Option ε} {malformed : ε} {make : UInt8 → Bytes → ρ} {buf : Bytes}

/-- What the readers have in common: a limit on the length and the position
after it, and what they make of the first byte and the body. -/
def reader (limit : Nat → Nat → Option ε) (malformed : ε) (make : UInt8 → Bytes → ρ) (buf : Bytes) : Taken UInt8 ρ ε :=
  if buf.length < 2 then .more
  else match lengthLoop (buf.drop 1) 1 0 0 1 with
    | .more => .more
    | .malformed => .bad malformed
    | .len n i => match limit n i with
      | some err => .bad err
      | none =>
        if buf.length < i + n then .more
        else .got (make (buf.headD 0) ((buf.drop i).take n)) (buf.drop (i + n))

theorem takePacket_eq : mqttTakePacket =
    reader (fun n _ => if n > mqttMaxInboundPacket then some () else none) () fun b body => ⟨b >>> 4, body⟩ := by
  funext buf
  unfold mqttTakePacket reader
  dsimp only
  split
  · rfl
  · split
    · rfl
    · rfl
    · split <;> rfl

/-- The buffer does not overflow: it is shorter than a packet within the limit. -/
theorem tryParse_eq : tryParse =
    reader (fun n i => if i + n > maxInboundPacket then
        some (.protocolError ("inbound packet too large: " ++ toString (i + n) ++ " bytes")) else none)
      (.osError "malformed remaining length") fun b body => ⟨b >>> 4, b &&& 0x0F, body⟩ := by
  funext buf
  unfold tryParse reader
  have hloop : decodeLoop (buf.drop 1) 1 0 1 = lengthLoop (buf.drop 1) 1 0 0 1 := @decodeLoop_eq _ 0 _ _ (by decide)
  rw [hloop]
  split
  · rfl
  · cases lengthLoop (buf.drop 1) 1 0 0 1 with
    | more => rfl
    | malformed => rfl
    | len n i =>
      dsimp only
      by_cases hlimit : i + n > maxInboundPacket
      · rw [if_pos hlimit, if_pos hlimit]
      · rw [if_neg hlimit, if_neg hlimit]
        dsimp only
        by_cases hshort : buf.length < i + n
        · have hfits : ¬ buf.length > maxRxBuffer := by
            unfold maxRxBuffer
            omega
          rw [if_pos hshort, if_pos hshort, if_neg hfits]
        · rw [if_neg hshort, if_neg hshort]

/-- The bytes of a packet that is there are its first byte, its length and its body. -/
theorem reader_got {r : ρ} {rest : Bytes} (h : reader limit malformed make buf = .got r rest) :
    ∃ n i, 2 ≤ buf.length ∧ lengthLoop (buf.drop 1) 1 0 0 1 = .len n i ∧ limit n i = none ∧ i + n ≤ buf.length ∧
      r = make (buf.headD 0) ((buf.drop i).take n) ∧ rest = buf.drop (i + n) := by
  unfold reader at h
  split at h
  · cases h
  next htwo =>
    split at h
    · cases h
    · cases h
    next n i hlen =>
      split at h
      · cases h
      next hlimit =>
        split at h
        · cases h
        next hfits =>
          cases h
          exact ⟨n, i, by omega, hlen, hlimit, by omega, rfl, rfl⟩

theorem reader_framed : Framed (reader limit malformed make) where
  shrinks h := by
    obtain ⟨n, i, htwo, hlen, -, hfits, -, rfl⟩ := reader_got h
    have hi := lengthLoop_len hlen
    rw [List.length_drop]
    omega
  got_append {buf r rest} more h := by
    obtain ⟨n, i, htwo, hlen, hlimit, hfits, rfl, rfl⟩ := reader_got h
    have hdrop : ∀ k, k ≤ buf.length → (buf ++ more).drop k = buf.drop k ++ more := fun k hk =>
      List.drop_append_of_le_length hk
    have hloop : lengthLoop ((buf ++ more).drop 1) 1 0 0 1 = .len n i := by
      rw [hdrop 1 (by omega), lengthLoop_append (by rw [hlen]; exact fun h => by cases h), hlen]
    have hlength : (buf ++ more).length = buf.length + more.length := List.length_append
    have hhead : (buf ++ more).headD 0 = buf.headD 0 := by
      cases buf with
      | nil => simp at htwo
      | cons b buf => rfl
    have htake : ((buf ++ more).drop i).take n = (buf.drop i).take n := by
      rw [hdrop i (by omega), List.take_append_of_le_length]
      rw [List.length_drop]
      omega
    unfold reader
    rw [if_neg (by omega), hloop]
    dsimp only
    rw [hlimit]
    dsimp only
    rw [if_neg (by omega), hhead, htake, hdrop (i + n) hfits]
  bad_append {buf err} more h := by
    unfold reader at h ⊢
    have hlength : (buf ++ more).length = buf.length + more.length := List.length_append
    by_cases htwo : buf.length < 2
    · rw [if_pos htwo] at h
      cases h
    · have hdrop : (buf ++ more).drop 1 = buf.drop 1 ++ more := List.drop_append_of_le_length (by omega)
      rw [if_neg htwo] at h
      rw [if_neg (by omega), hdrop]
      cases hloop : lengthLoop (buf.drop 1) 1 0 0 1 with
      | more =>
        rw [hloop] at h
        cases h
      | malformed =>
        rw [hloop] at h
        rw [lengthLoop_append (by rw [hloop]; exact fun h => by cases h), hloop]
        exact h
      | len n i =>
        rw [hloop] at h
        rw [lengthLoop_append (by rw [hloop]; exact fun h => by cases h), hloop]
        dsimp only at h ⊢
        cases hlimit : limit n i with
        | some err' =>
          rw [hlimit] at h
          exact h
        | none =>
          rw [hlimit] at h
          dsimp only at h
          split at h
          · cases h
          · cases h

theorem reader_packet {first : UInt8} {body : Bytes} (hlen : body.length < 128 ^ 4)
    (hlimit : limit body.length (1 + (remainingLength body.length).length) = none) :
    reader limit malformed make (first :: (remainingLength body.length ++ body)) = .got (make first body) [] := by
  have hloop : lengthLoop (remainingLength body.length ++ body) 1 0 0 1 =
      .len body.length (1 + (remainingLength body.length).length) := by
    have h := @lengthLoop_remainingLength body 1 0 0 1 body.length (by decide) hlen
    rwa [Nat.zero_add, Nat.mul_one] at h
  have hpos : 0 < (remainingLength body.length).length := by
    rw [remainingLength]
    split <;> exact Nat.succ_pos _
  have htotal : (first :: (remainingLength body.length ++ body)).length =
      1 + (remainingLength body.length).length + body.length := by
    rw [List.length_cons, List.length_append]
    omega
  have hbody : (first :: (remainingLength body.length ++ body)).drop (1 + (remainingLength body.length).length) = body := by
    rw [Nat.add_comm, List.drop_succ_cons, List.drop_left' rfl]
  unfold reader
  rw [if_neg (by omega), List.drop_one, List.tail_cons, hloop]
  dsimp only
  rw [hlimit]
  dsimp only
  rw [if_neg (by omega), hbody, List.take_length, List.drop_eq_nil_of_le (by omega)]
  rfl

theorem reader_long {first d₁ d₂ d₃ d₄ : UInt8} {rest : Bytes} (h₁ : d₁ &&& 0x80 ≠ 0) (h₂ : d₂ &&& 0x80 ≠ 0)
    (h₃ : d₃ &&& 0x80 ≠ 0) (h₄ : d₄ &&& 0x80 ≠ 0) :
    reader limit malformed make (first :: d₁ :: d₂ :: d₃ :: d₄ :: rest) = .bad malformed := by
  have hloop : lengthLoop (d₁ :: d₂ :: d₃ :: d₄ :: rest) 1 0 0 1 = .malformed := by
    simp [lengthLoop, h₁, h₂, h₃, h₄]
  unfold reader
  rw [if_neg (by simp), List.drop_one, List.tail_cons, hloop]

/-- A client takes packets as they are sent: `code` is the length before a
body, `fits` the bodies there may be, `make` what a packet is taken for. -/
structure TakesPackets (take : Bytes → Taken UInt8 ρ ε) (code : Nat → Bytes) (fits : Bytes → Prop)
    (make : UInt8 → Bytes → ρ) : Prop where
  /-- the packets come out in order, however the stream is cut, and what
  follows them is taken as if it were all there is -/
  sent : ∀ (ps : List (UInt8 × Bytes)) (rest : Bytes) (pieces : List Bytes), (∀ p ∈ ps, fits p.2) →
    pieces.flatten = ps.flatMap (fun p => p.1 :: (code p.2.length ++ p.2)) ++ rest →
    feeds take (.more []) pieces = (ps.map (fun p => make p.1 p.2) ++ (drain take rest).1, (drain take rest).2)
  /-- the packets and what is rejected, and where, are those of the stream -/
  cut : ∀ pieces : List Bytes, feeds take (.more []) pieces = drain take pieces.flatten
  long : ∀ first d₁ d₂ d₃ d₄ rest, d₁ &&& 0x80 ≠ 0 → d₂ &&& 0x80 ≠ 0 → d₃ &&& 0x80 ≠ 0 → d₄ &&& 0x80 ≠ 0 →
    ∃ err, take (first :: d₁ :: d₂ :: d₃ :: d₄ :: rest) = .bad err
  shrinks : ∀ buf r rest, take buf = .got r rest → rest.length < buf.length
  /-- the loop over the packets ends -/
  ends : ∀ buf, (drain take buf).2 ≠ .stuck

theorem reader_takes {fits : Bytes → Prop} (hfits : ∀ body, fits body → body.length < 128 ^ 4 ∧
    limit body.length (1 + (remainingLength body.length).length) = none) :
    TakesPackets (reader limit malformed make) remainingLength fits make := by
  have hcut : ∀ pieces : List Bytes, feeds (reader limit malformed make) (.more []) pieces =
      drain (reader limit malformed make) pieces.flatten := fun pieces => feeds_eq_drain reader_framed rfl pieces
  refine ⟨fun ps rest pieces hps hflat => ?_, hcut, fun first d₁ d₂ d₃ d₄ rest h₁ h₂ h₃ h₄ => ?_, ?_, ?_⟩
  · rw [hcut, hflat]
    refine drain_records reader_framed rest fun p hp => ?_
    obtain ⟨hlen, hlimit⟩ := hfits p.2 (hps p hp)
    exact reader_packet hlen hlimit
  · exact ⟨_, reader_long h₁ h₂ h₃ h₄⟩
  · exact fun buf r rest h => reader_framed.shrinks h
  · exact fun buf => drain_ne_stuck reader_framed

/-- **Packets come out as they were sent**, of either client. -/
theorem packets_framed :
    TakesPackets mqttTakePacket remainingLength (fun body => body.length ≤ 65536) (fun b body => ⟨b >>> 4, body⟩) ∧
      TakesPackets tryParse encLen (fun body => 1 + (encLen body.length).length + body.length ≤ 4 * 1024 * 1024)
        (fun b body => ⟨b >>> 4, b &&& 0x0F, body⟩) := by
  have hcode : encLen = remainingLength := funext fun n => encLen_eq
  constructor
  · rw [takePacket_eq]
    refine reader_takes fun body hbody => ⟨by omega, if_neg ?_⟩
    exact Nat.not_lt.mpr hbody
  · rw [tryParse_eq, hcode]
    refine reader_takes fun body hbody => ⟨by omega, if_neg ?_⟩
    exact Nat.not_lt.mpr hbody

end

end RetailVision.MqttFraming
