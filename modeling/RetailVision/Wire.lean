/-
Records of the socket between the native runtime and the host, as
`vb/src/wire.cpp` writes them. VBR1 is read by `vb/src/out/standalone.cpp` in
the native runtime and by `vision_base/wire.py` in the host.

A float is the word it is on the wire; so is a double. Left out: the names of
attributes, which `decode_result` is given and does not use.
-/
import RetailVision.Nlohmann
import RetailVision.Lib.Words

set_option linter.all false

namespace RetailVision.Wire

open Lib

/-- A `float`, by its word. -/
abbrev F32 := UInt32

/-- A `double`, by its word. -/
abbrev F64Word := UInt64

structure WireDet where
  cx : F32
  cy : F32
  w : F32
  h : F32
  score : F32
  classId : Int32
  trackId : UInt32
  deriving DecidableEq

structure WireFrameRec where
  streamIndex : UInt32
  seq : UInt64
  wallMs : F64Word
  srcW : Int32
  srcH : Int32
  modelW : Int32
  modelH : Int32
  scale : F32
  padX : F32
  padY : F32
  /-- 0 center, 1 top-left -/
  align : UInt8
  kptPerDet : UInt8
  inferenceMs : F32
  queueDelayMs : F32
  attrPerDet : UInt8
  dets : List WireDet
  /-- x, y and confidence -/
  kpts : List F32
  attrs : List F32
  deriving DecidableEq

/-! ## `wire.cpp` -/

def putU8 (out : Bytes) (v : UInt8) : Bytes := out ++ [v]
def putU16 (out : Bytes) (v : UInt16) : Bytes := out ++ putWord 2 v.toNat
def putU32 (out : Bytes) (v : UInt32) : Bytes := out ++ putWord 4 v.toNat
def putU64 (out : Bytes) (v : UInt64) : Bytes := out ++ putWord 8 v.toNat
def putI32 (out : Bytes) (v : Int32) : Bytes := putU32 out v.toUInt32
def putF32 (out : Bytes) (v : F32) : Bytes := putU32 out v
def putF64 (out : Bytes) (v : F64Word) : Bytes := putU64 out v

/-- The magic, and the length of what follows. -/
def putHeader (out : Bytes) (magic : Bytes) (bodyLen : UInt32) : Bytes := putU32 (out ++ magic) bodyLen

def magicFrame : Bytes := utf8 "VBR1"
def magicEvent : Bytes := utf8 "VBE1"
def magicControl : Bytes := utf8 "VBC1"
def magicSnapshot : Bytes := utf8 "VBS1"
def magicTensor : Bytes := utf8 "VBT1"

def vbr1Validate (r : WireFrameRec) : Except String Unit :=
  let nDet := r.dets.length
  let kpts := nDet * r.kptPerDet.toNat * 3
  let attrs := nDet * r.attrPerDet.toNat
  if nDet > 0xFFFF then .error ("VBR1 too many detections: " ++ toString nDet)
  else if r.kpts.length ≠ kpts then
    .error ("VBR1 keypoint count " ++ toString r.kpts.length ++ " does not match n_det " ++ toString nDet ++
      " * kpt_per_det " ++ toString r.kptPerDet ++ " * 3 (" ++ toString kpts ++ ")")
  else if r.attrs.length ≠ attrs then
    .error ("VBR1 attribute count " ++ toString r.attrs.length ++ " does not match n_det " ++ toString nDet ++
      " * attr_per_det " ++ toString r.attrPerDet ++ " (" ++ toString attrs ++ ")")
  else .ok ()

def putDet (out : Bytes) (d : WireDet) : Bytes :=
  let out := putF32 out d.cx
  let out := putF32 out d.cy
  let out := putF32 out d.w
  let out := putF32 out d.h
  let out := putF32 out d.score
  let out := putI32 out d.classId
  putU32 out d.trackId

/-- What is returned, `out` after it, and what `err` receives. -/
def wireEncodeVbr1 (r : WireFrameRec) (out : Bytes) : Bool × Bytes × String :=
  match vbr1Validate r with
  | .error why => (false, out, why)
  | .ok () =>
    let nDet : UInt16 := UInt16.ofNat r.dets.length
    let bodyLen := 64 + nDet.toNat * 28 + nDet.toNat * r.kptPerDet.toNat * 3 * 4 + nDet.toNat * r.attrPerDet.toNat * 4
    let out := putHeader out magicFrame (UInt32.ofNat bodyLen)
    let out := putU32 out r.streamIndex
    let out := putU64 out r.seq
    let out := putF64 out r.wallMs
    let out := putI32 out r.srcW
    let out := putI32 out r.srcH
    let out := putI32 out r.modelW
    let out := putI32 out r.modelH
    let out := putF32 out r.scale
    let out := putF32 out r.padX
    let out := putF32 out r.padY
    let out := putU8 out r.align
    let out := putU8 out r.kptPerDet
    let out := putU16 out nDet
    let out := putF32 out r.inferenceMs
    let out := putF32 out r.queueDelayMs
    let out := putU8 out r.attrPerDet
    let out := putU8 out 0
    let out := putU16 out 0
    let out := r.dets.foldl putDet out
    let out := r.kpts.foldl putF32 out
    let out := r.attrs.foldl putF32 out
    (true, out, "")

def wireEncodeJsonRecord (magic jsonBody : Bytes) (out : Bytes) : Bytes :=
  putHeader out magic (UInt32.ofNat jsonBody.length) ++ jsonBody

def wireEncodeVbs1 (metaJson payload : Bytes) (out : Bytes) : Bytes :=
  let out := putHeader out magicSnapshot (UInt32.ofNat (4 + metaJson.length + payload.length))
  let out := putU32 out (UInt32.ofNat metaJson.length)
  out ++ metaJson ++ payload

/-! ## `standalone.cpp` -/

section

variable (p : Bytes)

def byte (off : Nat) : UInt8 := p.getD off 0

def rdU32 (off : Nat) : UInt32 :=
  (byte p off).toUInt32 ||| (byte p (off + 1)).toUInt32 <<< 8 ||| (byte p (off + 2)).toUInt32 <<< 16 |||
    (byte p (off + 3)).toUInt32 <<< 24

def rdU64 (off : Nat) : UInt64 := (rdU32 p off).toUInt64 ||| (rdU32 p (off + 4)).toUInt64 <<< 32

def rdF32 (off : Nat) : F32 := rdU32 p off

def rdDet (off : Nat) : WireDet where
  cx := rdF32 p off
  cy := rdF32 p (off + 4)
  w := rdF32 p (off + 8)
  h := rdF32 p (off + 12)
  score := rdF32 p (off + 16)
  classId := (rdU32 p (off + 20)).toInt32
  trackId := rdU32 p (off + 24)

/-- The loop over the detections, `off` going on by 28. -/
def rdDets : Nat → Nat → List WireDet
  | 0, _ => []
  | n + 1, off => rdDet p off :: rdDets n (off + 28)

/-- The words from an offset on. -/
def rdF32s (n off : Nat) : List F32 := (List.range n).map fun i => rdF32 p (off + i * 4)

def decodeVbr1 : Option WireFrameRec :=
  let len := p.length
  if len < 64 then none
  else
    let nDet : UInt16 := (rdU32 p 50 &&& 0xffff).toUInt16
    let kptPerDet := byte p 49
    let attrPerDet := byte p 60
    if 64 + nDet.toNat * 28 > len then none
    else
      let off := 64 + nDet.toNat * 28
      let nk := nDet.toNat * kptPerDet.toNat * 3
      let na := nDet.toNat * attrPerDet.toNat
      if off + (nk + na) * 4 > len then none
      else some {
        streamIndex := rdU32 p 0
        seq := rdU64 p 4
        wallMs := rdU64 p 12
        srcW := (rdU32 p 20).toInt32
        srcH := (rdU32 p 24).toInt32
        modelW := (rdU32 p 28).toInt32
        modelH := (rdU32 p 32).toInt32
        scale := rdF32 p 36
        padX := rdF32 p 40
        padY := rdF32 p 44
        align := byte p 48
        kptPerDet := kptPerDet
        inferenceMs := rdF32 p 52
        queueDelayMs := rdF32 p 56
        attrPerDet := attrPerDet
        dets := rdDets p nDet.toNat 64
        kpts := rdF32s p nk off
        attrs := rdF32s p na (off + nk * 4) }

end

/-! ## `wire.py` -/

/-- What a decoder raises. -/
inductive Raised
  | wireError (text : String)
  /-- `struct.error` -/
  | structError
  deriving DecidableEq

/-- `Struct.unpack_from`: the bytes of a format of a size. -/
def unpackFrom (size : Nat) (body : Bytes) (offset : Nat) : Except Raised Bytes :=
  if offset + size ≤ body.length then .ok ((body.drop offset).take size) else .error .structError

/-- `B`, `H` and `I` of a format. -/
def unsigned (n off : Nat) (s : Bytes) : Nat := word n off s

/-- `i` of a format. -/
def signed (off : Nat) (s : Bytes) : Int := (UInt32.ofNat (word 4 off s)).toInt32.toInt

/-- `f` of a format. -/
def single (off : Nat) (s : Bytes) : F32 := UInt32.ofNat (word 4 off s)

/-- `d` of a format. -/
def double (off : Nat) (s : Bytes) : F64Word := UInt64.ofNat (word 8 off s)

def hexDigit (n : Nat) : Char := "0123456789abcdef".toList.getD n '0'

/-- `repr` of bytes. -/
def repr (b : Bytes) : String :=
  let quote : UInt8 := if 39 ∈ b ∧ 34 ∉ b then 34 else 39
  let shown : UInt8 → List Char := fun c =>
    if c = quote ∨ c = 92 then ['\\', Char.ofNat c.toNat]
    else if c = 9 then ['\\', 't']
    else if c = 10 then ['\\', 'n']
    else if c = 13 then ['\\', 'r']
    else if c < 32 ∨ 127 ≤ c then ['\\', 'x', hexDigit (c.toNat / 16), hexDigit (c.toNat % 16)]
    else [Char.ofNat c.toNat]
  String.ofList ('b' :: Char.ofNat quote.toNat :: (b.flatMap shown ++ [Char.ofNat quote.toNat]))

def decodeHeader (hdr : Bytes) : Except Raised (Bytes × Nat) :=
  if hdr.length < 8 then .error (.wireError ("truncated header: " ++ toString hdr.length ++ " bytes"))
  else do
    let s ← unpackFrom 8 hdr 0
    let magic := s.take 4
    let bodyLen := unsigned 4 4 s
    if magic ∉ [magicFrame, magicEvent, magicControl, magicSnapshot, magicTensor] then
      .error (.wireError ("bad magic " ++ repr magic))
    else .ok (magic, bodyLen)

structure Detection where
  cx : F32
  cy : F32
  w : F32
  h : F32
  score : F32
  classId : Int
  trackId : Nat
  keypoints : List (F32 × F32 × F32)
  attrs : List F32

/-- The dict that `decode_result` returns. -/
structure Result where
  streamIndex : Nat
  seq : Nat
  wallMs : F64Word
  srcW : Int
  srcH : Int
  modelW : Int
  modelH : Int
  scale : F32
  padX : F32
  padY : F32
  align : Nat
  inferenceMs : F32
  queueDelayMs : F32
  detections : List Detection

section

variable (body : Bytes)

/-- The loop over the detections, with the offset after it. -/
def detectionLoop : Nat → Nat → Except Raised (List Detection × Nat)
  | 0, offset => .ok ([], offset)
  | n + 1, offset => do
    let s ← unpackFrom 28 body offset
    let d : Detection := {
      cx := single 0 s
      cy := single 4 s
      w := single 8 s
      h := single 12 s
      score := single 16 s
      classId := signed 20 s
      trackId := unsigned 4 24 s
      keypoints := []
      attrs := [] }
    let (rest, offset) ← detectionLoop n (offset + 28)
    .ok (d :: rest, offset)

/-- The keypoints of a detection. -/
def keypointLoop : Nat → Nat → Except Raised (List (F32 × F32 × F32) × Nat)
  | 0, offset => .ok ([], offset)
  | k + 1, offset => do
    let s ← unpackFrom 12 body offset
    let (rest, offset) ← keypointLoop k (offset + 12)
    .ok ((single 0 s, single 4 s, single 8 s) :: rest, offset)

def keypointsLoop (kptPerDet : Nat) : List Detection → Nat → Except Raised (List Detection × Nat)
  | [], offset => .ok ([], offset)
  | d :: ds, offset => do
    let (keypoints, offset) ← keypointLoop body kptPerDet offset
    let (rest, offset) ← keypointsLoop kptPerDet ds offset
    .ok ({ d with keypoints := keypoints } :: rest, offset)

def attrsLoop (attrPerDet : Nat) : List Detection → Nat → Except Raised (List Detection × Nat)
  | [], offset => .ok ([], offset)
  | d :: ds, offset =>
    if attrPerDet = 0 then do
      let (rest, offset) ← attrsLoop attrPerDet ds offset
      .ok (d :: rest, offset)
    else do
      let s ← unpackFrom (attrPerDet * 4) body offset
      let (rest, offset) ← attrsLoop attrPerDet ds (offset + attrPerDet * 4)
      .ok ({ d with attrs := (List.range attrPerDet).map fun i => single (i * 4) s } :: rest, offset)

def decodeResult : Except Raised Result :=
  if body.length < 64 then
    .error (.wireError ("truncated VBR1 body: " ++ toString body.length ++ " < 64"))
  else do
    let s ← unpackFrom 64 body 0
    let kptPerDet := unsigned 1 49 s
    let nDet := unsigned 2 50 s
    let attrPerDet := unsigned 1 60 s
    let offset := 64
    let need := nDet * (28 + kptPerDet * 12 + attrPerDet * 4)
    if body.length - offset < need then
      .error (.wireError ("truncated VBR1 detections: have " ++ toString (body.length - offset) ++ ", need " ++
        toString need))
    else do
      let (detections, offset) ← detectionLoop body nDet offset
      let (detections, offset) ← keypointsLoop body kptPerDet detections offset
      let (detections, _) ← attrsLoop body attrPerDet detections offset
      .ok {
        streamIndex := unsigned 4 0 s
        seq := unsigned 8 4 s
        wallMs := double 12 s
        srcW := signed 20 s
        srcH := signed 24 s
        modelW := signed 28 s
        modelH := signed 32 s
        scale := single 36 s
        padX := single 40 s
        padY := single 44 s
        align := unsigned 1 48 s
        inferenceMs := single 52 s
        queueDelayMs := single 56 s
        detections := detections }

end

end RetailVision.Wire
