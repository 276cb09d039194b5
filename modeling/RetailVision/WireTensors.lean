/-
VBT1, the raw tensors of a frame in dev mode: `wire_encode_vbt1` of
`vb/src/dev_tensor.cpp` and `decode_tensors` of `vision_base/wire.py`. What the
encoder takes comes back. The decoder looks whether each part of a tensor is
there before it reads it, but for the length of a name: `struct.error` comes of
a body that stops there, and of no other (`vbt1_codec`).
-/
import RetailVision.WireFrames

set_option linter.all false

namespace RetailVision.Wire

open Lib

/-! ## `dev_tensor.cpp` -/

structure DevTensor where
  dtype : UInt8
  nhwc : Bool
  dims : List Int32
  scale : F32
  zeroPoint : Int32
  name : Bytes
  data : Bytes

structure DevTensorFrame where
  streamIndex : UInt32
  seq : UInt64
  wallMs : F64Word
  srcW : Int32
  srcH : Int32
  modelW : Int32
  modelH : Int32
  scale : F32
  padX : F32
  padY : F32
  /-- 0 center, 1 top-left -/
  align : UInt8
  tensors : List DevTensor

/-- "Whole-record cap (magic + body_len + body)" -/
def devTensorMaxRecord : Nat := 16 * 1024 * 1024

/-- The checks of each tensor, up to the first that fails. -/
def vbt1Validate : List DevTensor → Except String Unit
  | [] => .ok ()
  | t :: ts =>
    if t.dims.length > 4 then .error ("VBT1 tensor has more than 4 dims: " ++ toString t.dims.length)
    else if t.name.length > 0xFFFF then .error ("VBT1 tensor name too long: " ++ toString t.name.length)
    else if t.data.length > 0xFFFFFFFF then .error ("VBT1 tensor data too large: " ++ toString t.data.length)
    else vbt1Validate ts

def putTensor (body : Bytes) (t : DevTensor) : Bytes :=
  let body := putU8 body t.dtype
  let body := putU8 body (UInt8.ofNat t.dims.length)
  let body := putU8 body (if t.nhwc then 1 else 0)
  let body := putU8 body 0
  let body := (List.range 4).foldl (fun body i => putI32 body (t.dims.getD i 0)) body
  let body := putF32 body t.scale
  let body := putI32 body t.zeroPoint
  let body := putU16 body (UInt16.ofNat t.name.length)
  let body := body ++ t.name
  let body := putU32 body (UInt32.ofNat t.data.length)
  body ++ t.data

/-- What is returned, `out` after it, and `err`. -/
def wireEncodeVbt1 (f : DevTensorFrame) (out : Bytes) : Bool × Bytes × String :=
  if f.tensors.length > 0xFFFF then (false, out, "VBT1 too many tensors: " ++ toString f.tensors.length)
  else match vbt1Validate f.tensors with
    | .error err => (false, out, err)
    | .ok () =>
      let body : Bytes := []
      let body := putU32 body f.streamIndex
      let body := putU64 body f.seq
      let body := putF64 body f.wallMs
      let body := putI32 body f.srcW
      let body := putI32 body f.srcH
      let body := putI32 body f.modelW
      let body := putI32 body f.modelH
      let body := putF32 body f.scale
      let body := putF32 body f.padX
      let body := putF32 body f.padY
      let body := putU8 body f.align
      let body := putU8 body 0
      let body := putU8 body 0
      let body := putU8 body 0
      let body := putU16 body (UInt16.ofNat f.tensors.length)
      let body := putU16 body 0
      let body := f.tensors.foldl putTensor body
      if 8 + body.length > devTensorMaxRecord then (false, out, "dev tensor record exceeds 16 MiB")
      else (true, putU32 (out ++ magicTensor) (UInt32.ofNat body.length) ++ body, "")

/-! ## `wire.py` -/

structure RawTensor where
  name : String
  dtype : Nat
  dims : List Int
  scale : F32
  zeroPoint : Int
  nhwc : Bool
  data : Bytes

structure LetterboxGeom where
  srcW : Int
  srcH : Int
  modelW : Int
  modelH : Int
  scale : F32
  padX : F32
  padY : F32
  align : String

structure TensorFrame where
  streamId : String
  seq : Nat
  wallMs : F64Word
  geom : LetterboxGeom
  tensors : List RawTensor
  /-- "transient; shard maps it to stream_id" -/
  streamIndex : Nat

/-- `_ALIGN_NAMES.get(align, "center")` -/
def alignName (align : Nat) : String := if align = 1 then "top_left" else "center"

/-- The bytes that may come second after a first one, and how many more come. -/
def utf8Lead (b : UInt8) : Option (UInt8 × UInt8 × Nat) :=
  if 0xC2 ≤ b ∧ b ≤ 0xDF then some (0x80, 0xBF, 0)
  else if b = 0xE0 then some (0xA0, 0xBF, 1)
  else if b = 0xED then some (0x80, 0x9F, 1)
  else if 0xE1 ≤ b ∧ b ≤ 0xEF then some (0x80, 0xBF, 1)
  else if b = 0xF0 then some (0x90, 0xBF, 2)
  else if b = 0xF4 then some (0x80, 0x8F, 2)
  else if 0xF1 ≤ b ∧ b ≤ 0xF3 then some (0x80, 0xBF, 2)
  else none

/-- The rest of a character of which `v` has been read: it goes on with a byte
from `low` to `high` and `more` others, or is replaced as far as it goes. -/
def utf8Rest (v : Nat) (low high : UInt8) (more : Nat) : Bytes → Char × Bytes
  | [] => ('\uFFFD', [])
  | b :: bs =>
    if low ≤ b ∧ b ≤ high then
      match more with
      | 0 => (Char.ofNat (v * 64 + b.toNat % 64), bs)
      | more + 1 => utf8Rest (v * 64 + b.toNat % 64) 0x80 0xBF more bs
    else ('\uFFFD', b :: bs)

/-- Characters from bytes, each part that is none of one replaced. -/
def utf8Replace : Nat → Bytes → List Char
  | 0, _ => []
  | _ + 1, [] => []
  | n + 1, b :: bs =>
    if b < 0x80 then Char.ofNat b.toNat :: utf8Replace n bs
    else match utf8Lead b with
      | none => '\uFFFD' :: utf8Replace n bs
      | some (low, high, more) =>
        let x := utf8Rest (b.toNat % 2 ^ (5 - more)) low high more bs
        x.1 :: utf8Replace n x.2

/-- `decode("utf-8", "replace")` -/
def decodeReplace (b : Bytes) : String :=
  if h : Utf8 b then ⟨⟨b.toArray⟩, h⟩ else String.ofList (utf8Replace b.length b)

/-- A tensor at an offset, with the offset after it: a pass of the loop. -/
def unpackTensor (body : Bytes) (offset : Nat) : Except Raised (RawTensor × Nat) :=
  if body.length - offset < 28 then .error (.wireError "truncated VBT1 tensor header")
  else do
    let s ← unpackFrom 28 body offset
    let offset := offset + 28
    let nDims := unsigned 1 1 s
    if nDims > 4 then .error (.wireError ("bad VBT1 n_dims " ++ toString nDims))
    else do
      let l ← unpackFrom 2 body offset
      let nameLen := unsigned 2 0 l
      let offset := offset + 2
      if body.length - offset < nameLen then .error (.wireError "truncated VBT1 tensor name")
      else
        let name := decodeReplace ((body.drop offset).take nameLen)
        let offset := offset + nameLen
        if body.length - offset < 4 then .error (.wireError "truncated VBT1 tensor data length")
        else do
          let l ← unpackFrom 4 body offset
          let dataLen := unsigned 4 0 l
          let offset := offset + 4
          if body.length - offset < dataLen then .error (.wireError "truncated VBT1 tensor data")
          else .ok ({
            name := name
            dtype := unsigned 1 0 s
            dims := [signed 4 s, signed 8 s, signed 12 s, signed 16 s].take nDims
            scale := single 20 s
            zeroPoint := signed 24 s
            nhwc := unsigned 1 2 s ≠ 0
            data := (body.drop offset).take dataLen }, offset + dataLen)

/-- The loop over the tensors. -/
def tensorLoop (body : Bytes) : Nat → Nat → Except Raised (List RawTensor)
  | 0, _ => .ok []
  | n + 1, offset => do
    let (t, offset) ← unpackTensor body offset
    let ts ← tensorLoop body n offset
    .ok (t :: ts)

def decodeTensors (body : Bytes) : Except Raised TensorFrame :=
  if body.length < 56 then .error (.wireError ("truncated VBT1 body: " ++ toString body.length ++ " < 56"))
  else do
    let s ← unpackFrom 56 body 0
    let tensors ← tensorLoop body (unsigned 2 52 s) 56
    .ok {
      streamId := ""
      seq := unsigned 8 4 s
      wallMs := double 12 s
      geom := {
        srcW := signed 20 s
        srcH := signed 24 s
        modelW := signed 28 s
        modelH := signed 32 s
        scale := single 36 s
        padX := single 40 s
        padY := single 44 s
        align := alignName (unsigned 1 48 s) }
      tensors := tensors
      streamIndex := unsigned 4 0 s }

/-! ## Tensors in a body -/

/-- The first part of a tensor: 28 bytes, and at most four dimensions. -/
structure IsHead (head : Bytes) : Prop where
  length : head.length = 28
  dims : word 1 1 head ≤ 4

/-- The bytes of a tensor: its head, its name and its data, each with its length. -/
def partBytes (head name data : Bytes) : Bytes :=
  head ++ (putWord 2 name.length ++ (name ++ (putWord 4 data.length ++ data)))

/-- What the decoder makes of them. -/
def rawOf (head name data : Bytes) : RawTensor where
  name := decodeReplace name
  dtype := word 1 0 head
  dims := [signed 4 head, signed 8 head, signed 12 head, signed 16 head].take (word 1 1 head)
  scale := single 20 head
  zeroPoint := signed 24 head
  nhwc := word 1 2 head ≠ 0
  data := data

variable {body head name data rest : Bytes} {off : Nat}

/-- A read where the rest of a body is known. -/
theorem unpackFrom_append {s : Bytes} (hrest : body.drop off = s ++ rest) (hs : s ≠ []) :
    unpackFrom s.length body off = .ok s := by
  have hlen := congrArg List.length hrest
  have hpos : 0 < s.length := List.length_pos_iff.mpr hs
  rw [List.length_drop, List.length_append] at hlen
  rw [unpackFrom_ok (by omega), hrest, List.take_left' rfl]

theorem drop_append_of (hrest : body.drop off = head ++ rest) {n : Nat} (hn : n = off + head.length) :
    body.drop n = rest := by
  rw [hn, ← List.drop_drop, hrest, List.drop_left' rfl]

/-- A tensor that is there is read. -/
theorem unpackTensor_ok (hhead : IsHead head) (hname : name.length < 2 ^ 16) (hdata : data.length < 2 ^ 32)
    (hrest : body.drop off = partBytes head name data ++ rest) :
    unpackTensor body off = .ok (rawOf head name data, off + (partBytes head name data).length) := by
  have hlen := hhead.length
  simp only [partBytes, List.append_assoc] at hrest
  have hnameLen : body.drop (off + 28) = putWord 2 name.length ++ (name ++ (putWord 4 data.length ++ (data ++ rest))) :=
    drop_append_of hrest (by rw [hlen])
  have hnameAt : body.drop (off + 28 + 2) = name ++ (putWord 4 data.length ++ (data ++ rest)) :=
    drop_append_of hnameLen (by rw [length_putWord])
  have hdataLen : body.drop (off + 28 + 2 + name.length) = putWord 4 data.length ++ (data ++ rest) :=
    drop_append_of hnameAt rfl
  have hdataAt : body.drop (off + 28 + 2 + name.length + 4) = data ++ rest :=
    drop_append_of hdataLen (by rw [length_putWord])
  have htotal := congrArg List.length hrest
  simp only [List.length_drop, List.length_append, length_putWord, hlen] at htotal
  have hread : unpackFrom 28 body off = .ok head := by
    rw [← hlen]
    exact unpackFrom_append hrest (List.ne_nil_of_length_pos (by omega))
  have hreadName : unpackFrom 2 body (off + 28) = .ok (putWord 2 name.length) := by
    have h := unpackFrom_append hnameLen (List.cons_ne_nil _ _)
    rwa [length_putWord] at h
  have hreadData : unpackFrom 4 body (off + 28 + 2 + name.length) = .ok (putWord 4 data.length) := by
    have h := unpackFrom_append hdataLen (List.cons_ne_nil _ _)
    rwa [length_putWord] at h
  have hnl : unsigned 2 0 (putWord 2 name.length) = name.length := word_self hname
  have hdl : unsigned 4 0 (putWord 4 data.length) = data.length := word_self hdata
  have hdims : ¬ unsigned 1 1 head > 4 := Nat.not_lt.mpr hhead.dims
  unfold unpackTensor
  rw [if_neg (by omega), hread]
  simp only [bind, Except.bind]
  rw [if_neg hdims, hreadName]
  simp only [hnl]
  rw [if_neg (by omega), if_neg (by omega), hreadData]
  simp only [hdl]
  rw [if_neg (by omega), hnameAt, hdataAt, List.take_left' rfl, List.take_left' rfl]
  refine congrArg Except.ok (Prod.ext rfl ?_)
  simp only [partBytes, List.length_append, length_putWord, hlen]
  omega

/-- The head of a tensor is there, and the length of the name is not. -/
theorem unpackTensor_cut (hhead : IsHead head) (hrest : body.drop off = head ++ rest) (hcut : rest.length < 2) :
    unpackTensor body off = .error .structError := by
  have hlen := congrArg List.length hrest
  rw [List.length_drop, List.length_append, hhead.length] at hlen
  have hread : unpackFrom 28 body off = .ok head := by
    rw [← hhead.length]
    exact unpackFrom_append hrest (List.ne_nil_of_length_pos (by rw [hhead.length]; decide))
  have hcut' : ¬ off + 28 + 2 ≤ body.length := by omega
  have hdims : ¬ unsigned 1 1 head > 4 := Nat.not_lt.mpr hhead.dims
  unfold unpackTensor
  rw [if_neg (by omega), hread]
  simp only [bind, Except.bind]
  rw [if_neg hdims, unpackFrom, if_neg hcut']

theorem split_at (n m : Nat) : body.drop n = (body.drop n).take m ++ body.drop (n + m) := by
  rw [← List.drop_drop, List.take_append_drop]

/-- What has been read, written again. -/
theorem putWord_unsigned {n m : Nat} (h : n + m ≤ body.length) :
    putWord m (unsigned m 0 ((body.drop n).take m)) = (body.drop n).take m := by
  have hlen : ((body.drop n).take m).length = m := by
    rw [List.length_take, List.length_drop]
    omega
  have hof := putWord_ofBytes (l := (body.drop n).take m)
  rw [hlen] at hof
  rw [unsigned, word, List.drop_zero, List.take_take, Nat.min_self]
  exact hof

/-- A tensor that is there, by its parts. -/
theorem partBytes_of (hhead : IsHead ((body.drop off).take 28)) (hcut : off + 28 + 2 ≤ body.length)
    (hname : unsigned 2 0 ((body.drop (off + 28)).take 2) ≤ body.length - (off + 28 + 2))
    (hsize : 4 ≤ body.length - (off + 28 + 2 + unsigned 2 0 ((body.drop (off + 28)).take 2)))
    (hdata : unsigned 4 0 ((body.drop (off + 28 + 2 + unsigned 2 0 ((body.drop (off + 28)).take 2))).take 4) ≤
      body.length - (off + 28 + 2 + unsigned 2 0 ((body.drop (off + 28)).take 2) + 4)) :
    ∃ head name data rest, IsHead head ∧ name.length < 2 ^ 16 ∧ data.length < 2 ^ 32 ∧
      body.drop off = partBytes head name data ++ rest := by
  have hnl : unsigned 2 0 ((body.drop (off + 28)).take 2) < 256 ^ 2 := word_lt
  have hdl : unsigned 4 0 ((body.drop (off + 28 + 2 + unsigned 2 0 ((body.drop (off + 28)).take 2))).take 4) < 256 ^ 4 :=
    word_lt
  have hput := putWord_unsigned hcut
  generalize unsigned 2 0 ((body.drop (off + 28)).take 2) = nl at *
  have hput' := @putWord_unsigned body (off + 28 + 2 + nl) 4 (by omega)
  generalize unsigned 4 0 ((body.drop (off + 28 + 2 + nl)).take 4) = dl at *
  have hlen : ∀ n m, m ≤ body.length - n → ((body.drop n).take m).length = m := by
    intro n m h
    rw [List.length_take, List.length_drop]
    omega
  refine ⟨_, (body.drop (off + 28 + 2)).take nl, (body.drop (off + 28 + 2 + nl + 4)).take dl,
    body.drop (off + 28 + 2 + nl + 4 + dl), hhead, ?_, ?_, ?_⟩
  · rw [hlen _ _ hname]
    exact hnl
  · rw [hlen _ _ hdata]
    exact hdl
  · rw [partBytes, hlen _ _ hname, hlen _ _ hdata, hput, hput']
    simp only [List.append_assoc]
    rw [← split_at (off + 28 + 2 + nl + 4) dl, ← split_at (off + 28 + 2 + nl) 4, ← split_at (off + 28 + 2) nl,
      ← split_at (off + 28) 2, ← split_at off 28]

/-- **What a pass of the loop comes to**: `WireError`, `struct.error` where the
body stops behind a head, or a tensor that is there. -/
theorem unpackTensor_cases (body : Bytes) (off : Nat) : (∃ text, unpackTensor body off = .error (.wireError text)) ∨
    (unpackTensor body off = .error .structError ∧
      ∃ head rest, IsHead head ∧ body.drop off = head ++ rest ∧ rest.length < 2) ∨
    ∃ head name data rest, IsHead head ∧ name.length < 2 ^ 16 ∧ data.length < 2 ^ 32 ∧
      body.drop off = partBytes head name data ++ rest := by
  unfold unpackTensor
  by_cases hshort : body.length - off < 28
  · exact .inl ⟨_, if_pos hshort⟩
  · rw [if_neg hshort, unpackFrom_ok (by omega)]
    simp only [bind, Except.bind]
    by_cases hdims : unsigned 1 1 ((body.drop off).take 28) > 4
    · exact .inl ⟨_, if_pos hdims⟩
    · have hhead : IsHead ((body.drop off).take 28) := by
        refine ⟨?_, Nat.not_lt.mp hdims⟩
        rw [List.length_take, List.length_drop]
        omega
      rw [if_neg hdims]
      by_cases hcut : off + 28 + 2 ≤ body.length
      · rw [unpackFrom_ok hcut]
        simp only
        by_cases hname : body.length - (off + 28 + 2) < unsigned 2 0 ((body.drop (off + 28)).take 2)
        · exact .inl ⟨_, if_pos hname⟩
        · rw [if_neg hname]
          by_cases hsize : body.length - (off + 28 + 2 + unsigned 2 0 ((body.drop (off + 28)).take 2)) < 4
          · exact .inl ⟨_, if_pos hsize⟩
          · rw [if_neg hsize, unpackFrom_ok (by omega)]
            simp only
            by_cases hdata : body.length - (off + 28 + 2 + unsigned 2 0 ((body.drop (off + 28)).take 2) + 4) <
                unsigned 4 0 ((body.drop (off + 28 + 2 + unsigned 2 0 ((body.drop (off + 28)).take 2))).take 4)
            · exact .inl ⟨_, if_pos hdata⟩
            · exact .inr (.inr (partBytes_of hhead hcut (Nat.not_lt.mp hname) (Nat.not_lt.mp hsize) (Nat.not_lt.mp hdata)))
      · refine .inr (.inl ⟨?_, _, body.drop (off + 28), hhead, split_at off 28, ?_⟩)
        · rw [unpackFrom, if_neg hcut]
        · rw [List.length_drop]
          omega

/-! ## The loop over the tensors -/

/-- The bytes of a whole tensor. -/
def IsTensor (t : Bytes) : Prop :=
  ∃ head name data, t = partBytes head name data ∧ IsHead head ∧ name.length < 2 ^ 16 ∧ data.length < 2 ^ 32

/-- Of `n` tensors some are there, and the next one stops behind its head,
before the length of its name. -/
def CutAtName (n : Nat) (bytes : Bytes) : Prop :=
  ∃ (ts : List Bytes) (head rest : Bytes), bytes = ts.flatten ++ (head ++ rest) ∧ ts.length < n ∧ (∀ t ∈ ts, IsTensor t) ∧ IsHead head ∧
    rest.length < 2

theorem tensorLoop_cut {n : Nat} (h : CutAtName n (body.drop off)) : tensorLoop body n off = .error .structError := by
  obtain ⟨ts, head, rest, hbytes, hlt, hts, hhead, hcut⟩ := h
  induction ts generalizing n off with
  | nil =>
    cases n with
    | zero => exact absurd hlt (Nat.not_lt_zero _)
    | succ n =>
      rw [tensorLoop, unpackTensor_cut hhead hbytes hcut]
      rfl
  | cons t ts ih =>
    cases n with
    | zero => exact absurd hlt (Nat.not_lt_zero _)
    | succ n =>
      obtain ⟨⟨first, name, data, rfl, hfirst, hname, hdata⟩, hmore⟩ := List.forall_mem_cons.mp hts
      rw [List.flatten_cons, List.append_assoc] at hbytes
      rw [tensorLoop, unpackTensor_ok hfirst hname hdata hbytes]
      simp only [bind, Except.bind]
      rw [ih (drop_append_of hbytes rfl) (Nat.lt_of_succ_lt_succ hlt) hmore]

theorem tensorLoop_cases (body : Bytes) (n off : Nat) : (∃ ts, tensorLoop body n off = .ok ts) ∨
    (∃ text, tensorLoop body n off = .error (.wireError text)) ∨ CutAtName n (body.drop off) := by
  induction n generalizing off with
  | zero => exact .inl ⟨[], rfl⟩
  | succ n ih =>
    obtain ⟨text, h⟩ | ⟨-, head, rest, hhead, hbytes, hcut⟩ | ⟨head, name, data, rest, hhead, hname, hdata, hbytes⟩ :=
      unpackTensor_cases body off
    · refine .inr (.inl ⟨text, ?_⟩)
      rw [tensorLoop, h]
      rfl
    · exact .inr (.inr ⟨[], head, rest, hbytes, Nat.succ_pos n, fun t ht => absurd ht List.not_mem_nil, hhead, hcut⟩)
    · rw [tensorLoop, unpackTensor_ok hhead hname hdata hbytes]
      simp only [bind, Except.bind]
      obtain ⟨ts, h⟩ | ⟨text, h⟩ | ⟨ts, h, r, hr, hlt, hts, hh, hcut⟩ := ih (off + (partBytes head name data).length)
      · rw [h]
        exact .inl ⟨_, rfl⟩
      · rw [h]
        exact .inr (.inl ⟨text, rfl⟩)
      · refine .inr (.inr ⟨partBytes head name data :: ts, h, r, ?_, Nat.succ_lt_succ hlt, ?_, hh, hcut⟩)
        · rw [List.flatten_cons, List.append_assoc, ← hr, drop_append_of hbytes rfl, hbytes]
        · rw [List.forall_mem_cons]
          exact ⟨⟨head, name, data, rfl, hhead, hname, hdata⟩, hts⟩

/-- The frame of a body, with its tensors. -/
def tensorFrameOf (body : Bytes) (tensors : List RawTensor) : TensorFrame where
  streamId := ""
  seq := word 8 4 body
  wallMs := rdU64 body 12
  geom := {
    srcW := (rdU32 body 20).toInt32.toInt
    srcH := (rdU32 body 24).toInt32.toInt
    modelW := (rdU32 body 28).toInt32.toInt
    modelH := (rdU32 body 32).toInt32.toInt
    scale := rdF32 body 36
    padX := rdF32 body 40
    padY := rdF32 body 44
    align := alignName (word 1 48 body) }
  tensors := tensors
  streamIndex := word 4 0 body

/-- The loop is over what follows the first 56 bytes. -/
theorem decodeTensors_eq (hlen : 56 ≤ body.length) :
    decodeTensors body = (tensorLoop body (word 2 52 body) 56).map (tensorFrameOf body) := by
  unfold decodeTensors
  rw [if_neg (by omega), unpackFrom_ok (by omega)]
  simp only [bind, Except.bind, unsigned_slice, signed_slice, single_slice, double_slice, Nat.reduceAdd,
    Nat.reduceLeDiff, Nat.zero_add]
  cases tensorLoop body (word 2 52 body) 56 <;> rfl

/-- **`struct.error` comes of a body that stops behind a head**, and of no other. -/
theorem decodeTensors_cases (body : Bytes) :
    (((∃ tf, decodeTensors body = .ok tf) ∨ ∃ text, decodeTensors body = .error (.wireError text)) ∧
        ¬ CutAtName (word 2 52 body) (body.drop 56)) ∨
      decodeTensors body = .error .structError ∧ CutAtName (word 2 52 body) (body.drop 56) := by
  by_cases hlen : 56 ≤ body.length
  · rw [decodeTensors_eq hlen]
    by_cases hcut : CutAtName (word 2 52 body) (body.drop 56)
    · rw [tensorLoop_cut hcut]
      exact .inr ⟨rfl, hcut⟩
    · obtain ⟨ts, h⟩ | ⟨text, h⟩ | h := tensorLoop_cases body (word 2 52 body) 56
      · rw [h]
        exact .inl ⟨.inl ⟨_, rfl⟩, hcut⟩
      · rw [h]
        exact .inl ⟨.inr ⟨text, rfl⟩, hcut⟩
      · exact absurd h hcut
  · refine .inl ⟨.inr ⟨_, if_pos (by omega)⟩, fun ⟨ts, head, rest, hbytes, _, _, hhead, _⟩ => ?_⟩
    have hempty := congrArg List.length hbytes
    rw [List.length_drop, List.length_append, List.length_append, hhead.length] at hempty
    omega

/-! ## There and back -/

variable {f : DevTensorFrame} {t : DevTensor}

/-- What the encoder takes. -/
structure Encodable (t : DevTensor) : Prop where
  dims : t.dims.length ≤ 4
  name : t.name.length ≤ 0xFFFF
  data : t.data.length ≤ 0xFFFFFFFF

/-- The first part of a tensor. -/
def headBytes (t : DevTensor) : Bytes :=
  t.dtype :: UInt8.ofNat t.dims.length :: (if t.nhwc then 1 else 0) :: 0 ::
    (putWord 4 (t.dims.getD 0 0).toUInt32.toNat ++ (putWord 4 (t.dims.getD 1 0).toUInt32.toNat ++
    (putWord 4 (t.dims.getD 2 0).toUInt32.toNat ++ (putWord 4 (t.dims.getD 3 0).toUInt32.toNat ++
    (putWord 4 t.scale.toNat ++ putWord 4 t.zeroPoint.toUInt32.toNat)))))

/-- The part of a body before the tensors. -/
def fixedTensorBytes (f : DevTensorFrame) : Bytes :=
  putWord 4 f.streamIndex.toNat ++ (putWord 8 f.seq.toNat ++ (putWord 8 f.wallMs.toNat ++
    (putWord 4 f.srcW.toUInt32.toNat ++ (putWord 4 f.srcH.toUInt32.toNat ++ (putWord 4 f.modelW.toUInt32.toNat ++
    (putWord 4 f.modelH.toUInt32.toNat ++ (putWord 4 f.scale.toNat ++ (putWord 4 f.padX.toNat ++
    (putWord 4 f.padY.toNat ++ (f.align :: 0 :: 0 :: 0 :: (putWord 2 (UInt16.ofNat f.tensors.length).toNat ++
    putWord 2 0)))))))))))

def tensorBody (f : DevTensorFrame) : Bytes :=
  fixedTensorBytes f ++ f.tensors.flatMap fun t => partBytes (headBytes t) t.name t.data

theorem length_headBytes : (headBytes t).length = 28 := by simp [headBytes]

theorem length_fixedTensorBytes : (fixedTensorBytes f).length = 56 := by simp [fixedTensorBytes]

theorem isHead_headBytes (ht : Encodable t) : IsHead (headBytes t) ∧ word 1 1 (headBytes t) = t.dims.length := by
  have hword : word 1 1 (headBytes t) = t.dims.length := by
    have hsmall : (UInt8.ofNat t.dims.length).toNat = t.dims.length := UInt8.toNat_ofNat_of_lt (Nat.lt_of_le_of_lt ht.dims (by decide))
    rw [headBytes, word_skip_byte (by decide), word_u8, hsmall]
  exact ⟨⟨length_headBytes, hword ▸ ht.dims⟩, hword⟩

theorem putTensor_eq (ht : Encodable t) : putTensor body t = body ++ partBytes (headBytes t) t.name t.data := by
  have hn : (UInt16.ofNat t.name.length).toNat = t.name.length := UInt16.toNat_ofNat_of_lt (Nat.lt_succ_of_le ht.name)
  have hd : (UInt32.ofNat t.data.length).toNat = t.data.length := UInt32.toNat_ofNat_of_lt (Nat.lt_succ_of_le ht.data)
  have hfour : List.range 4 = [0, 1, 2, 3] := rfl
  simp only [putTensor, hfour, List.foldl_cons, List.foldl_nil, putU8, putU16, putU32, putI32, putF32, hn, hd, partBytes,
    headBytes, List.append_assoc, List.cons_append, List.nil_append]

theorem foldl_putTensor {ts : List DevTensor} (hts : ∀ t ∈ ts, Encodable t) :
    ts.foldl putTensor body = body ++ ts.flatMap fun t => partBytes (headBytes t) t.name t.data := by
  induction ts generalizing body with
  | nil => simp
  | cons t ts ih =>
    obtain ⟨ht, hts⟩ := List.forall_mem_cons.mp hts
    rw [List.foldl_cons, ih hts, putTensor_eq ht, List.flatMap_cons, List.append_assoc]

theorem vbt1Validate_cases (ts : List DevTensor) :
    (vbt1Validate ts = .ok () ∧ ∀ t ∈ ts, Encodable t) ∨ ∃ err, vbt1Validate ts = .error err := by
  induction ts with
  | nil => exact .inl ⟨rfl, fun t ht => absurd ht List.not_mem_nil⟩
  | cons t ts ih =>
    unfold vbt1Validate
    by_cases hdims : t.dims.length > 4
    · exact .inr ⟨_, if_pos hdims⟩
    · by_cases hname : t.name.length > 0xFFFF
      · rw [if_neg hdims]
        exact .inr ⟨_, if_pos hname⟩
      · by_cases hdata : t.data.length > 0xFFFFFFFF
        · rw [if_neg hdims, if_neg hname]
          exact .inr ⟨_, if_pos hdata⟩
        · rw [if_neg hdims, if_neg hname, if_neg hdata]
          obtain ⟨hok, hts⟩ | herr := ih
          · have ht : Encodable t := ⟨Nat.not_lt.mp hdims, Nat.not_lt.mp hname, Nat.not_lt.mp hdata⟩
            exact .inl ⟨hok, List.forall_mem_cons.mpr ⟨ht, hts⟩⟩
          · exact .inr herr

/-- **A frame is refused, or written whole**: a header with the length of the body, and the body. -/
theorem wireEncodeVbt1_cases (f : DevTensorFrame) (out : Bytes) : (∃ err, wireEncodeVbt1 f out = (false, out, err)) ∨
    (f.tensors.length ≤ 0xFFFF ∧ (∀ t ∈ f.tensors, Encodable t) ∧ (tensorBody f).length < 2 ^ 32 ∧
      wireEncodeVbt1 f out = (true, out ++ (magicTensor ++ putWord 4 (tensorBody f).length ++ tensorBody f), "")) := by
  unfold wireEncodeVbt1
  by_cases hmany : f.tensors.length > 0xFFFF
  · exact .inl ⟨_, if_pos hmany⟩
  · rw [if_neg hmany]
    obtain ⟨hok, hts⟩ | ⟨err, herr⟩ := vbt1Validate_cases f.tensors
    · rw [hok]
      dsimp only
      have hbody : f.tensors.foldl putTensor (putU16 (putU16 (putU8 (putU8 (putU8 (putU8 (putF32 (putF32 (putF32
          (putI32 (putI32 (putI32 (putI32 (putF64 (putU64 (putU32 [] f.streamIndex) f.seq) f.wallMs) f.srcW) f.srcH)
          f.modelW) f.modelH) f.scale) f.padX) f.padY) f.align) 0) 0) 0) (UInt16.ofNat f.tensors.length)) 0) =
          tensorBody f := by
        rw [foldl_putTensor hts]
        simp only [putU8, putU16, putU32, putU64, putI32, putF32, putF64, tensorBody, fixedTensorBytes,
          List.append_assoc, List.cons_append, List.nil_append]
        rfl
      rw [hbody]
      by_cases hsize : 8 + (tensorBody f).length > devTensorMaxRecord
      · exact .inl ⟨_, if_pos hsize⟩
      · have hlt : (tensorBody f).length < 2 ^ 32 := by
          unfold devTensorMaxRecord at hsize
          omega
        refine .inr ⟨Nat.not_lt.mp hmany, hts, hlt, ?_⟩
        have hput : (UInt32.ofNat (tensorBody f).length).toNat = (tensorBody f).length := UInt32.toNat_ofNat_of_lt hlt
        rw [if_neg hsize, putU32, hput]
        simp only [List.append_assoc]
    · rw [herr]
      exact .inl ⟨err, rfl⟩

/-- The host has a tensor. -/
structure SameTensor (t : DevTensor) (r : RawTensor) : Prop where
  name : utf8 r.name = t.name
  dtype : r.dtype = t.dtype.toNat
  dims : r.dims = t.dims.map Int32.toInt
  scale : r.scale = t.scale
  zeroPoint : r.zeroPoint = t.zeroPoint.toInt
  nhwc : r.nhwc = t.nhwc
  data : r.data = t.data

/-- The host has a frame. -/
structure SameFrame (f : DevTensorFrame) (tf : TensorFrame) : Prop where
  streamIndex : tf.streamIndex = f.streamIndex.toNat
  seq : tf.seq = f.seq.toNat
  wallMs : tf.wallMs = f.wallMs
  srcW : tf.geom.srcW = f.srcW.toInt
  srcH : tf.geom.srcH = f.srcH.toInt
  modelW : tf.geom.modelW = f.modelW.toInt
  modelH : tf.geom.modelH = f.modelH.toInt
  scale : tf.geom.scale = f.scale
  padX : tf.geom.padX = f.padX
  padY : tf.geom.padY = f.padY
  center : f.align = 0 → tf.geom.align = "center"
  topLeft : f.align = 1 → tf.geom.align = "top_left"
  tensors : List.Forall₂ SameTensor f.tensors tf.tensors

theorem signed_toNat {s : Bytes} {v : Int32} (h : word 4 off s = v.toUInt32.toNat) : signed off s = v.toInt := by
  rw [signed, h, UInt32.ofNat_toNat]
  rfl

theorem sameTensor (ht : Encodable t) (hname : Utf8 t.name) :
    SameTensor t (rawOf (headBytes t) t.name t.data) := by
  have hdims : [signed 4 (headBytes t), signed 8 (headBytes t), signed 12 (headBytes t), signed 16 (headBytes t)] =
      [t.dims.getD 0 0, t.dims.getD 1 0, t.dims.getD 2 0, t.dims.getD 3 0].map Int32.toInt := by
    rw [signed_toNat (v := t.dims.getD 0 0), signed_toNat (v := t.dims.getD 1 0), signed_toNat (v := t.dims.getD 2 0),
      signed_toNat (v := t.dims.getD 3 0)]
    · rfl
    all_goals simp only [headBytes, word_skip, word_skip_byte, Nat.reduceLeDiff, Nat.reduceSub, word_u32]
  have hfour : ∀ ds : List Int32, ds.length ≤ 4 →
      [ds.getD 0 0, ds.getD 1 0, ds.getD 2 0, ds.getD 3 0].take ds.length = ds := by
    intro ds hds
    match ds with
    | [] | [_] | [_, _] | [_, _, _] | [_, _, _, _] => rfl
    | _ :: _ :: _ :: _ :: _ :: _ =>
      simp only [List.length_cons] at hds
      omega
  exact {
    name := by
      rw [rawOf, decodeReplace, dif_pos hname]
      rfl
    dtype := by
      rw [rawOf, headBytes, word_u8]
    dims := by
      rw [rawOf, hdims, (isHead_headBytes ht).2, ← List.map_take, hfour t.dims ht.dims]
    scale := by
      have h : word 4 20 (headBytes t) = t.scale.toNat := by
        simp only [headBytes, word_skip, word_skip_byte, Nat.reduceLeDiff, Nat.reduceSub, word_u32]
      rw [rawOf, single, h, UInt32.ofNat_toNat]
    zeroPoint := by
      have h : word 4 24 (headBytes t) = t.zeroPoint.toUInt32.toNat := by
        simp only [headBytes, word_skip, word_skip_byte, Nat.reduceLeDiff, Nat.reduceSub]
        exact word_self t.zeroPoint.toUInt32.toNat_lt
      rw [rawOf, signed_toNat h]
    nhwc := by
      have h : word 1 2 (headBytes t) = (if t.nhwc then 1 else 0 : UInt8).toNat := by
        simp only [headBytes, word_skip_byte, Nat.reduceLeDiff, Nat.reduceSub, word_u8]
      rw [rawOf, h]
      cases t.nhwc <;> rfl
    data := rfl }

theorem tensorLoop_ok {ts : List DevTensor} (hts : ∀ t ∈ ts, Encodable t)
    (hrest : body.drop off = (ts.flatMap fun t => partBytes (headBytes t) t.name t.data) ++ rest) :
    tensorLoop body ts.length off = .ok (ts.map fun t => rawOf (headBytes t) t.name t.data) := by
  induction ts generalizing off with
  | nil => rfl
  | cons t ts ih =>
    obtain ⟨ht, hts⟩ := List.forall_mem_cons.mp hts
    rw [List.flatMap_cons, List.append_assoc] at hrest
    rw [List.length_cons, tensorLoop, unpackTensor_ok (isHead_headBytes ht).1 (Nat.lt_succ_of_le ht.name)
      (Nat.lt_succ_of_le ht.data) hrest]
    simp only [bind, Except.bind]
    rw [ih hts (drop_append_of hrest rfl)]
    rfl

theorem decodeTensors_tensorBody (hmany : f.tensors.length ≤ 0xFFFF) (hts : ∀ t ∈ f.tensors, Encodable t)
    (hnames : ∀ t ∈ f.tensors, Utf8 t.name) : ∃ tf, decodeTensors (tensorBody f) = .ok tf ∧ SameFrame f tf := by
  have hlen : 56 ≤ (tensorBody f).length := by
    rw [tensorBody, List.length_append, length_fixedTensorBytes]
    omega
  have hdrop : (tensorBody f).drop 56 =
      (f.tensors.flatMap fun t => partBytes (headBytes t) t.name t.data) ++ [] := by
    rw [tensorBody, List.drop_left' length_fixedTensorBytes, List.append_nil]
  have hcount : word 2 52 (tensorBody f) = f.tensors.length := by
    have hsmall : (UInt16.ofNat f.tensors.length).toNat = f.tensors.length :=
      UInt16.toNat_ofNat_of_lt (Nat.lt_succ_of_le hmany)
    conv => rhs; rw [← hsmall]
    simp only [tensorBody, fixedTensorBytes, List.append_assoc, List.cons_append, word_skip, word_skip_byte,
      Nat.reduceLeDiff, Nat.reduceSub, word_u16]
  refine ⟨_, by rw [decodeTensors_eq hlen, hcount, tensorLoop_ok hts hdrop]; rfl, ?_⟩
  have hall : List.Forall₂ SameTensor f.tensors (f.tensors.map fun t => rawOf (headBytes t) t.name t.data) := by
    rw [List.forall₂_map_right_iff, List.forall₂_same]
    exact fun t ht => sameTensor (hts t ht) (hnames t ht)
  constructor
  case tensors => exact hall
  all_goals
    simp only [tensorFrameOf, rdU32_eq, rdU64_eq, rdF32_eq, tensorBody, fixedTensorBytes, List.append_assoc,
      List.cons_append, word_skip, Nat.reduceLeDiff, Nat.reduceSub, word_u8, word_u32, word_u64, UInt32.ofNat_toNat,
      UInt64.ofNat_toNat]
  case srcW | srcH | modelW | modelH => rfl
  case center | topLeft =>
    intro halign
    rw [halign]
    rfl

/-- **VBT1 there and back.** A frame that the encoder takes comes back, if its
names are texts; one that it does not take leaves nothing. The decoder returns
or raises `WireError` exactly for the bodies that do not stop behind the head
of a tensor. -/
theorem vbt1_codec (f : DevTensorFrame) (out bytes : Bytes) :
    (match wireEncodeVbt1 f out with
      | (true, out', _) => ∃ header body, out' = out ++ (header ++ body) ∧
          decodeHeader header = .ok (magicTensor, body.length) ∧
          ((∀ t ∈ f.tensors, Utf8 t.name) → ∃ tf, decodeTensors body = .ok tf ∧ SameFrame f tf)
      | (false, out', _) => out' = out) ∧
    (((∃ tf, decodeTensors bytes = .ok tf) ∨ ∃ text, decodeTensors bytes = .error (.wireError text)) ↔
      ¬ CutAtName (word 2 52 bytes) (bytes.drop 56)) := by
  refine ⟨?_, ?_⟩
  · obtain ⟨err, h⟩ | ⟨hmany, hts, hlt, h⟩ := wireEncodeVbt1_cases f out
    · rw [h]
    · rw [h]
      exact ⟨_, _, rfl, decodeHeader_eq (by decide) hlt, fun hnames => decodeTensors_tensorBody hmany hts hnames⟩
  · obtain ⟨h, hcut⟩ | ⟨h, hcut⟩ := decodeTensors_cases bytes
    · exact iff_of_true h hcut
    · rw [h]
      refine iff_of_false ?_ (not_not.mpr hcut)
      intro hno
      obtain ⟨tf, h⟩ | ⟨text, h⟩ := hno
      · cases h
      · cases h

/-- One tensor, and no more of it than its head. -/
def cutBody : Bytes := List.replicate 52 0 ++ 1 :: List.replicate 31 0

theorem cutBody_raises : ¬ ∀ body, (∃ tf, decodeTensors body = .ok tf) ∨
    ∃ text, decodeTensors body = .error (.wireError text) := by
  intro hall
  have hraises : decodeTensors cutBody = .error .structError := rfl
  obtain ⟨tf, h⟩ | ⟨text, h⟩ := hall cutBody
  · rw [hraises] at h
    cases h
  · rw [hraises] at h
    cases h

end RetailVision.Wire
