/-
The host's side of the socket: `_read_loop` and `_dispatch` of
`vision_base/runtime_client.py`. Whatever the records of the native encoders
are cut into, the loop dispatches each of them, in order, and what one of them
comes to is nothing to the others (`records_dispatched`).

A callback is what it does to the host, and whether it raises. Left out: what
becomes of a control record and of a snapshot once they are decoded, what
follows the end of the connection, and VBT1 with no tensor callback, which
closes it.
-/
import RetailVision.WireTensors
import RetailVision.Lib.Framing

set_option linter.all false

namespace RetailVision.RuntimeReader

open Lib Wire

/-! ## Records -/

/-- What the native runtime writes. -/
inductive Record
  | frame (r : WireFrameRec)
  | event (jsonBody : Bytes)
  | control (jsonBody : Bytes)
  | snapshot (metaJson payload : Bytes)
  | tensors (f : DevTensorFrame)

/-- The bytes of a record; one that its encoder refuses has none. -/
def Record.bytes : Record → Bytes
  | .frame r => (wireEncodeVbr1 r []).2.1
  | .event jsonBody => wireEncodeJsonRecord magicEvent jsonBody []
  | .control jsonBody => wireEncodeJsonRecord magicControl jsonBody []
  | .snapshot metaJson payload => wireEncodeVbs1 metaJson payload []
  | .tensors f => (wireEncodeVbt1 f []).2.1

def Record.magic : Record → Bytes
  | .frame _ => magicFrame
  | .event _ => magicEvent
  | .control _ => magicControl
  | .snapshot _ _ => magicSnapshot
  | .tensors _ => magicTensor

/-- The magic of a record and its body, which is what is written after the
header. -/
def Record.pair (r : Record) : Option (Bytes × Bytes) :=
  if r.bytes = [] then none else some (r.magic, r.bytes.drop 8)

/-! ## Dispatching -/

/-- What a record raises: an error of its decoder, or one of a callback. -/
inductive Fault
  | decoding (e : Raised)
  | callback

/-- The client, the host behind it being `σ`. -/
structure Client (σ : Type) where
  /-- `json.loads` of what decodes as UTF-8; nothing where it raises -/
  loads : Bytes → Option Json
  onFrame : Nat → Result → σ → Except Fault Unit × σ
  onEvent : Json → σ → Except Fault Unit × σ
  dispatchControl : Json → σ → Except Fault Unit × σ
  onSnapshot : Json → Bytes → σ → Except Fault Unit × σ
  onTensors : Nat → TensorFrame → σ → Except Fault Unit × σ

variable {σ : Type} (c : Client σ)

def decodeEvent (body : Bytes) : Except Raised Json :=
  match c.loads body with
  | none => .error (.wireError "bad VBE1 body")
  | some obj => if obj.isObject then .ok obj else .error (.wireError "VBE1 body must be a JSON object")

def decodeSnapshot (body : Bytes) : Except Raised (Json × Bytes) :=
  if body.length < 4 then .error (.wireError "truncated VBS1 body")
  else do
    let s ← unpackFrom 4 body 0
    let jsonLen := unsigned 4 0 s
    if body.length < 4 + jsonLen then .error (.wireError "truncated VBS1 meta")
    else match c.loads ((body.drop 4).take jsonLen) with
      | none => .error (.wireError "bad VBS1 meta")
      | some meta_ => .ok (meta_, body.drop (4 + jsonLen))

/-- A body is decoded, or not; then what is done with it. -/
def decoded {α : Type} (x : Except Raised α) (f : α → σ → Except Fault Unit × σ) (s : σ) : Except Fault Unit × σ :=
  match x with
  | .error e => (.error (.decoding e), s)
  | .ok a => f a s

/-- `_dispatch` -/
def dispatch (magic body : Bytes) (s : σ) : Except Fault Unit × σ :=
  if magic = magicFrame then decoded (decodeResult body) (fun d => c.onFrame d.streamIndex d) s
  else if magic = magicEvent then decoded (decodeEvent c body) c.onEvent s
  else if magic = magicControl then decoded (decodeEvent c body) c.dispatchControl s
  else if magic = magicSnapshot then decoded (decodeSnapshot c body) (fun x => c.onSnapshot x.1 x.2) s
  else if magic = magicTensor then decoded (decodeTensors body) (fun tf => c.onTensors tf.streamIndex tf) s
  else (.ok (), s)

/-- The body of a record decodes. -/
def decodes (magic body : Bytes) : Bool :=
  if magic = magicFrame then (decodeResult body).isOk
  else if magic = magicEvent ∨ magic = magicControl then (decodeEvent c body).isOk
  else if magic = magicSnapshot then (decodeSnapshot c body).isOk
  else if magic = magicTensor then (decodeTensors body).isOk
  else true

/-! ## Reading -/

/-- A pass of the inner loop: a record off the front of the buffer. -/
def readRecord (buf : Bytes) : Taken UInt8 (Bytes × Bytes) Raised :=
  if buf.length < 8 then .more
  else match decodeHeader (buf.take 8) with
    | .error e => .bad e
    | .ok (magic, n) =>
      if buf.length < 8 + n then .more
      else .got (magic, (buf.drop 8).take n) (buf.drop (8 + n))

/-- The loop's buffer, what has been dispatched, and what that has come to. -/
structure State (σ : Type) where
  buf : Bytes
  calls : List (Bytes × Bytes)
  host : σ

/-- A chunk arrives. A bad magic discards the whole buffer; an exception of
`_dispatch` is dropped. -/
def readChunk (s : State σ) (chunk : Bytes) : State σ :=
  let x := drain readRecord (s.buf ++ chunk)
  { buf := match x.2 with
      | .more rest => rest
      | _ => []
    calls := s.calls ++ x.1
    host := x.1.foldl (fun host r => (dispatch c r.1 r.2 host).2) s.host }

/-- The chunks are received one after the other; an empty one is the end of the
connection. -/
def readLoop : State σ → List Bytes → State σ
  | s, [] => s
  | s, chunk :: chunks => if chunk = [] then s else readLoop (readChunk c s chunk) chunks

def start (host : σ) : State σ := { buf := [], calls := [], host := host }

/-! ## A record off the front -/

/-- The bytes of a record: its header, with the length of the body, and the body. -/
def packed (r : Bytes × Bytes) : Bytes := r.1 ++ putWord 4 r.2.length ++ r.2

variable {buf rest : Bytes} {r : Bytes × Bytes} {host : σ}

theorem readRecord_got (h : readRecord buf = .got r rest) : ∃ magic n, decodeHeader (buf.take 8) = .ok (magic, n) ∧
    8 + n ≤ buf.length ∧ r = (magic, (buf.drop 8).take n) ∧ rest = buf.drop (8 + n) := by
  unfold readRecord at h
  split at h
  · cases h
  · split at h
    · cases h
    next magic n hhead =>
      split at h
      · cases h
      next hfits =>
        cases h
        exact ⟨magic, n, hhead, Nat.not_lt.mp hfits, rfl, rfl⟩

theorem readRecord_bad {e : Raised} (h : readRecord buf = .bad e) :
    8 ≤ buf.length ∧ decodeHeader (buf.take 8) = .error e := by
  unfold readRecord at h
  split at h
  · cases h
  next hlong =>
    split at h
    next e' hhead =>
      cases h
      exact ⟨Nat.not_lt.mp hlong, hhead⟩
    · split at h
      · cases h
      · cases h

theorem readRecord_framed : Framed readRecord where
  shrinks {buf _ _} h := by
    obtain ⟨magic, n, -, hfits, -, rfl⟩ := readRecord_got h
    rw [List.length_drop]
    omega
  got_append {buf _ _} more h := by
    obtain ⟨magic, n, hhead, hfits, rfl, rfl⟩ := readRecord_got h
    have hlength : (buf ++ more).length = buf.length + more.length := List.length_append
    have htake : (buf ++ more).take 8 = buf.take 8 := List.take_append_of_le_length (by omega)
    have hbody : ((buf ++ more).drop 8).take n = (buf.drop 8).take n := by
      rw [List.drop_append_of_le_length (by omega), List.take_append_of_le_length]
      rw [List.length_drop]
      omega
    unfold readRecord
    rw [if_neg (by omega), htake, hhead]
    dsimp only
    rw [if_neg (by omega), hbody, List.drop_append_of_le_length hfits]
  bad_append {buf e} more h := by
    obtain ⟨hlong, hhead⟩ := readRecord_bad h
    have hlength : (buf ++ more).length = buf.length + more.length := List.length_append
    have htake : (buf ++ more).take 8 = buf.take 8 := List.take_append_of_le_length hlong
    unfold readRecord
    rw [if_neg (by omega), htake, hhead]

theorem mem_magic (r : Record) : r.magic ∈ [magicFrame, magicEvent, magicControl, magicSnapshot, magicTensor] := by
  cases r with
  | frame r => exact List.mem_cons_self
  | event jsonBody => exact List.mem_cons_of_mem _ List.mem_cons_self
  | control jsonBody => exact List.mem_cons_of_mem _ (List.mem_cons_of_mem _ List.mem_cons_self)
  | snapshot metaJson payload =>
    exact List.mem_cons_of_mem _ (List.mem_cons_of_mem _ (List.mem_cons_of_mem _ List.mem_cons_self))
  | tensors f =>
    exact List.mem_cons_of_mem _ (List.mem_cons_of_mem _ (List.mem_cons_of_mem _ (List.mem_cons_of_mem _ List.mem_cons_self)))

/-- A record is read as it was written. -/
theorem readRecord_packed {magic body : Bytes} (hmagic : magic ∈ [magicFrame, magicEvent, magicControl, magicSnapshot, magicTensor])
    (hbody : body.length < 2 ^ 32) : readRecord (packed (magic, body)) = .got (magic, body) [] := by
  have hhead : (magic ++ putWord 4 body.length).length = 8 := by
    rw [List.length_append, length_magic magic hmagic, length_putWord]
  have hlength : (packed (magic, body)).length = 8 + body.length := by
    rw [packed, List.length_append, hhead]
  have htake : (packed (magic, body)).take 8 = magic ++ putWord 4 body.length := List.take_left' hhead
  have hdrop : (packed (magic, body)).drop 8 = body := List.drop_left' hhead
  have hall : (packed (magic, body)).drop (8 + body.length) = [] := List.drop_eq_nil_of_le (by omega)
  unfold readRecord
  rw [if_neg (by omega), htake, decodeHeader_eq hmagic hbody]
  dsimp only
  rw [if_neg (by omega), hdrop, List.take_length, hall]

/-! ## What is written -/

/-- A header and a body, if the length of the body can be written. -/
theorem putHeader_packed {magic body : Bytes} (hmagic : magic.length = 4)
    (hlen : (putHeader [] magic (UInt32.ofNat body.length) ++ body).length < 8 + 2 ^ 32) :
    body.length < 2 ^ 32 ∧ putHeader [] magic (UInt32.ofNat body.length) ++ body = packed (magic, body) := by
  have hhead : (putHeader [] magic (UInt32.ofNat body.length)).length = 8 := by
    rw [putHeader, putU32, List.nil_append, List.length_append, hmagic, length_putWord]
  rw [List.length_append, hhead] at hlen
  have hlt : body.length < 2 ^ 32 := by omega
  have hword : (UInt32.ofNat body.length).toNat = body.length := UInt32.toNat_ofNat_of_lt hlt
  refine ⟨hlt, ?_⟩
  rw [putHeader, putU32, hword, List.nil_append]
  rfl

/-- **Nothing is written of a record, or its magic, a length and as many bytes.** -/
theorem bytes_cases (r : Record) (hbody : r.bytes.length < 8 + 2 ^ 32) :
    r.bytes = [] ∨ ∃ body, body.length < 2 ^ 32 ∧ r.bytes = packed (r.magic, body) := by
  cases r with
  | frame r =>
    obtain ⟨hok, hv⟩ | ⟨why, hwhy⟩ := validate_cases r
    · refine .inr ⟨bodyBytes r, length_bodyBytes_lt hv, ?_⟩
      rw [Record.bytes, encode_eq hv hok, List.nil_append]
      rfl
    · refine .inl ?_
      rw [Record.bytes, wireEncodeVbr1, hwhy]
  | event jsonBody =>
    obtain ⟨hlt, hbytes⟩ := putHeader_packed (length_magic magicEvent (by decide)) hbody
    exact .inr ⟨jsonBody, hlt, hbytes⟩
  | control jsonBody =>
    obtain ⟨hlt, hbytes⟩ := putHeader_packed (length_magic magicControl (by decide)) hbody
    exact .inr ⟨jsonBody, hlt, hbytes⟩
  | snapshot metaJson payload =>
    have hlen : 4 + metaJson.length + payload.length =
        (putWord 4 (UInt32.ofNat metaJson.length).toNat ++ metaJson ++ payload).length := by
      rw [List.length_append, List.length_append, length_putWord]
    have hwhole : (Record.snapshot metaJson payload).bytes = putHeader [] magicSnapshot
        (UInt32.ofNat (putWord 4 (UInt32.ofNat metaJson.length).toNat ++ metaJson ++ payload).length) ++
          (putWord 4 (UInt32.ofNat metaJson.length).toNat ++ metaJson ++ payload) := by
      rw [Record.bytes, wireEncodeVbs1, ← hlen, putU32, List.append_assoc, List.append_assoc, List.append_assoc]
    rw [hwhole] at hbody ⊢
    obtain ⟨hlt, hbytes⟩ := putHeader_packed (length_magic magicSnapshot (by decide)) hbody
    exact .inr ⟨_, hlt, hbytes⟩
  | tensors f =>
    obtain ⟨err, herr⟩ | ⟨-, -, hlt, hok⟩ := wireEncodeVbt1_cases f []
    · refine .inl ?_
      rw [Record.bytes, herr]
    · refine .inr ⟨tensorBody f, hlt, ?_⟩
      rw [Record.bytes, hok, List.nil_append]
      rfl

theorem pair_nil {r : Record} (h : r.bytes = []) : r.pair = none := if_pos h

theorem pair_packed {r : Record} {body : Bytes} (h : r.bytes = packed (r.magic, body)) : r.pair = some (r.magic, body) := by
  have hhead : (r.magic ++ putWord 4 body.length).length = 8 := by
    rw [List.length_append, length_magic r.magic (mem_magic r), length_putWord]
  have hne : r.bytes ≠ [] := by
    intro hnil
    rw [h, packed, List.append_eq_nil_iff] at hnil
    rw [hnil.1] at hhead
    cases hhead
  have hdrop : r.bytes.drop 8 = body := by
    rw [h]
    exact List.drop_left' hhead
  rw [Record.pair, if_neg hne, hdrop]

/-- The bytes of records are those of the records that are written, each of
which is read as it was written. -/
theorem flatMap_bytes {records : List Record} (hbody : ∀ r ∈ records, r.bytes.length < 8 + 2 ^ 32) :
    records.flatMap Record.bytes = (records.filterMap Record.pair).flatMap packed ∧
      ∀ r ∈ records.filterMap Record.pair, readRecord (packed r) = .got r [] := by
  induction records with
  | nil => exact ⟨rfl, fun r hr => absurd hr List.not_mem_nil⟩
  | cons r records ih =>
    obtain ⟨hr, hrecords⟩ := List.forall_mem_cons.mp hbody
    obtain ⟨hbytes, hread⟩ := ih hrecords
    obtain hnil | ⟨body, hlt, hpacked⟩ := bytes_cases r hr
    · rw [List.flatMap_cons, hnil, List.nil_append, List.filterMap_cons_none (pair_nil hnil)]
      exact ⟨hbytes, hread⟩
    · rw [List.flatMap_cons, List.filterMap_cons_some (pair_packed hpacked), List.flatMap_cons, hpacked, hbytes]
      exact ⟨rfl, List.forall_mem_cons.mpr ⟨readRecord_packed (mem_magic r) hlt, hread⟩⟩

/-! ## The loop -/

/-- What the chunks bring, as long as no magic is bad. -/
theorem readLoop_eq {s : State σ} {chunks : List Bytes} (hne : ∀ chunk ∈ chunks, chunk ≠ [])
    (h : (feeds readRecord (.more s.buf) chunks).2 = .more rest) :
    readLoop c s chunks =
      { buf := rest
        calls := s.calls ++ (feeds readRecord (.more s.buf) chunks).1
        host := (feeds readRecord (.more s.buf) chunks).1.foldl (fun host r => (dispatch c r.1 r.2 host).2) s.host } := by
  induction chunks generalizing s with
  | nil =>
    cases h
    rw [readLoop, feeds, List.append_nil, List.foldl_nil]
  | cons chunk chunks ih =>
    obtain ⟨hchunk, hchunks⟩ := List.forall_mem_cons.mp hne
    have hstep : readLoop c s (chunk :: chunks) = readLoop c (readChunk c s chunk) chunks := if_neg hchunk
    rw [feeds, feed] at h ⊢
    rw [hstep]
    cases hstop : (drain readRecord (s.buf ++ chunk)).2 with
    | more rest' =>
      rw [hstop] at h
      have hbuf : (readChunk c s chunk).buf = rest' := by rw [readChunk, hstop]
      rw [← hbuf] at h
      rw [ih hchunks h, hbuf, readChunk]
      dsimp only
      rw [List.append_assoc, List.foldl_append]
    | bad e rest' =>
      rw [hstop, feeds_bad] at h
      cases h
    | stuck => exact absurd hstop (drain_ne_stuck readRecord_framed)

/-- A body that does not decode leaves the host as it is. -/
theorem dispatch_undecoded {magic body : Bytes} (h : decodes c magic body = false) : (dispatch c magic body host).2 = host := by
  have hdecoded : ∀ {α : Type} (x : Except Raised α) f, x.isOk = false → (decoded x f host).2 = host := by
    intro α x f hx
    cases x with
    | error e => rfl
    | ok a => cases hx
  unfold decodes at h
  unfold dispatch
  by_cases hframe : magic = magicFrame
  · rw [if_pos hframe] at h ⊢
    exact hdecoded _ _ h
  · rw [if_neg hframe] at h ⊢
    by_cases hevent : magic = magicEvent
    · rw [if_pos (.inl hevent)] at h
      rw [if_pos hevent]
      exact hdecoded _ _ h
    · rw [if_neg hevent]
      by_cases hcontrol : magic = magicControl
      · rw [if_pos (.inr hcontrol)] at h
        rw [if_pos hcontrol]
        exact hdecoded _ _ h
      · rw [if_neg (not_or.mpr ⟨hevent, hcontrol⟩)] at h
        rw [if_neg hcontrol]
        by_cases hsnapshot : magic = magicSnapshot
        · rw [if_pos hsnapshot] at h ⊢
          exact hdecoded _ _ h
        · rw [if_neg hsnapshot] at h ⊢
          by_cases htensor : magic = magicTensor
          · rw [if_pos htensor] at h ⊢
            exact hdecoded _ _ h
          · rw [if_neg htensor] at h
            cases h

/-- **Every record is dispatched**, in order, however the bytes were cut; those
that do not decode are as if they had not been there. -/
theorem records_dispatched (records : List Record) (chunks : List Bytes) (host : σ)
    (hbody : ∀ r ∈ records, r.bytes.length < 8 + 2 ^ 32) (hne : ∀ chunk ∈ chunks, chunk ≠ [])
    (hcut : chunks.flatten = records.flatMap Record.bytes) :
    readLoop c (start host) chunks =
      { buf := []
        calls := records.filterMap Record.pair
        host := ((records.filterMap Record.pair).filter fun r => decodes c r.1 r.2).foldl
          (fun host r => (dispatch c r.1 r.2 host).2) host } := by
  obtain ⟨hbytes, hread⟩ := flatMap_bytes hbody
  have hfeeds : feeds readRecord (.more []) chunks = (records.filterMap Record.pair, .more []) := by
    have hrecords : drain readRecord ((records.filterMap Record.pair).flatMap packed ++ []) = _ :=
      @drain_records _ _ _ _ readRecord_framed _ packed id _ [] hread
    rw [feeds_eq_drain readRecord_framed rfl, List.nil_append, hcut, hbytes, ← List.append_nil (List.flatMap _ _), hrecords,
      drain_more rfl, List.map_id, List.append_nil]
  have hskip : (fun host (r : Bytes × Bytes) => (dispatch c r.1 r.2 host).2) =
      fun host r => if decodes c r.1 r.2 then (dispatch c r.1 r.2 host).2 else host := by
    funext host r
    by_cases h : decodes c r.1 r.2
    · rw [if_pos h]
    · rw [if_neg h, dispatch_undecoded c (Bool.not_eq_true _ ▸ h)]
  have hloop := readLoop_eq c (s := start host) hne (congrArg Prod.snd hfeeds)
  rw [hloop, List.foldl_filter, ← hskip]
  exact congrArg (fun calls => (⟨[], calls, calls.foldl (fun host r => (dispatch c r.1 r.2 host).2) host⟩ : State σ))
    (congrArg Prod.fst hfeeds)

/-- A host that counts events and control records, whose event callback raises. -/
def counting : Client Nat where
  loads body := if body = utf8 "\x7b\x7d" then some (.obj []) else none
  onFrame _ _ n := (.ok (), n)
  onEvent _ n := (.error .callback, n + 1)
  dispatchControl _ n := (.ok (), n + 1)
  onSnapshot _ _ n := (.ok (), n)
  onTensors _ _ n := (.ok (), n)

/-- An event whose callback raises, one that does not decode and a control
record, cut within a header. -/
theorem records_dispatched_counting :
    let records := [Record.event (utf8 "\x7b\x7d"), .event (utf8 "\x7b"), .control (utf8 "\x7b\x7d")]
    let bytes := records.flatMap Record.bytes
    readLoop counting (start 0) [bytes.take 5, bytes.drop 5] =
      { buf := []
        calls := [(magicEvent, utf8 "\x7b\x7d"), (magicEvent, utf8 "\x7b"), (magicControl, utf8 "\x7b\x7d")]
        host := 2 } :=
  (records_dispatched counting [.event (utf8 "\x7b\x7d"), .event (utf8 "\x7b"), .control (utf8 "\x7b\x7d")] _ 0
    (by decide) (by decide) (by decide)).trans rfl

end RetailVision.RuntimeReader
