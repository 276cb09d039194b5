/-
`sha256_hex` of `vb/backends/cpu/sha256.cpp`, by which a backend says what model it
has loaded; the other backends have copies of it. It hashes the whole blocks of the
data where they are, and the padded rest in a buffer of two blocks: that is the
digest of the padded data, whatever the buffer held before (`sha256Hex_eq`). So
two models with one `model_sha256` give a collision of `process_block`
(`sha256Hex_collision`).
-/
import RetailVision.Lib.MerkleDamgard
import RetailVision.Lib.Buffers
import RetailVision.Lib.Words
import Mathlib.Tactic.IntervalCases

set_option linter.all false

namespace RetailVision.Sha256

open Lib Lib.Buffers
open MerkleDamgard (Collision digest)

abbrev Bytes := List UInt8

def kK : List UInt32 := [
  0x428a2f98, 0x71374491, 0xb5c0fbcf, 0xe9b5dba5, 0x3956c25b, 0x59f111f1, 0x923f82a4, 0xab1c5ed5,
  0xd807aa98, 0x12835b01, 0x243185be, 0x550c7dc3, 0x72be5d74, 0x80deb1fe, 0x9bdc06a7, 0xc19bf174,
  0xe49b69c1, 0xefbe4786, 0x0fc19dc6, 0x240ca1cc, 0x2de92c6f, 0x4a7484aa, 0x5cb0a9dc, 0x76f988da,
  0x983e5152, 0xa831c66d, 0xb00327c8, 0xbf597fc7, 0xc6e00bf3, 0xd5a79147, 0x06ca6351, 0x14292967,
  0x27b70a85, 0x2e1b2138, 0x4d2c6dfc, 0x53380d13, 0x650a7354, 0x766a0abb, 0x81c2c92e, 0x92722c85,
  0xa2bfe8a1, 0xa81a664b, 0xc24b8b70, 0xc76c51a3, 0xd192e819, 0xd6990624, 0xf40e3585, 0x106aa070,
  0x19a4c116, 0x1e376c08, 0x2748774c, 0x34b0bcb5, 0x391c0cb3, 0x4ed8aa4a, 0x5b9cca4f, 0x682e6ff3,
  0x748f82ee, 0x78a5636f, 0x84c87814, 0x8cc70208, 0x90befffa, 0xa4506ceb, 0xbef9a3f7, 0xc67178f2]

def rotr (x n : UInt32) : UInt32 := (x >>> n) ||| (x <<< (32 - n))

/-- The chaining variables, and the working variables `a` to `h`. -/
structure Regs where
  h0 : UInt32
  h1 : UInt32
  h2 : UInt32
  h3 : UInt32
  h4 : UInt32
  h5 : UInt32
  h6 : UInt32
  h7 : UInt32
  deriving DecidableEq

def iv : Regs := {
  h0 := 0x6a09e667, h1 := 0xbb67ae85, h2 := 0x3c6ef372, h3 := 0xa54ff53a
  h4 := 0x510e527f, h5 := 0x9b05688c, h6 := 0x1f83d9ab, h7 := 0x5be0cd19 }

/-- `w[i]` of the block at `p`, for `i < 16`. -/
def word (p : Nat → UInt8) (i : Nat) : UInt32 :=
  ((p (i * 4)).toUInt32 <<< 24) ||| ((p (i * 4 + 1)).toUInt32 <<< 16) ||| ((p (i * 4 + 2)).toUInt32 <<< 8) ||| (p (i * 4 + 3)).toUInt32

/-- One more entry of `w`. -/
def extend (w : List UInt32) : List UInt32 :=
  let i := w.length
  let s0 := rotr (w.getD (i - 15) 0) 7 ^^^ rotr (w.getD (i - 15) 0) 18 ^^^ (w.getD (i - 15) 0 >>> 3)
  let s1 := rotr (w.getD (i - 2) 0) 17 ^^^ rotr (w.getD (i - 2) 0) 19 ^^^ (w.getD (i - 2) 0 >>> 10)
  w ++ [w.getD (i - 16) 0 + s0 + w.getD (i - 7) 0 + s1]

def schedule (p : Nat → UInt8) : List UInt32 := (List.range 48).foldl (fun w _ => extend w) ((List.range 16).map (word p))

/-- A round, with `kK[i]` and `w[i]`. -/
def round (v : Regs) (kw : UInt32 × UInt32) : Regs :=
  let S1 := rotr v.h4 6 ^^^ rotr v.h4 11 ^^^ rotr v.h4 25
  let ch := (v.h4 &&& v.h5) ^^^ (~~~v.h4 &&& v.h6)
  let t1 := v.h7 + S1 + ch + kw.1 + kw.2
  let S0 := rotr v.h0 2 ^^^ rotr v.h0 13 ^^^ rotr v.h0 22
  let maj := (v.h0 &&& v.h1) ^^^ (v.h0 &&& v.h2) ^^^ (v.h1 &&& v.h2)
  let t2 := S0 + maj
  { h0 := t1 + t2, h1 := v.h0, h2 := v.h1, h3 := v.h2, h4 := v.h3 + t1, h5 := v.h4, h6 := v.h5, h7 := v.h6 }

/-- `process_block`, of the bytes from `p` on. -/
@[irreducible] def processBlock (p : Nat → UInt8) (h : Regs) : Regs :=
  let v := (kK.zip (schedule p)).foldl round h
  { h0 := h.h0 + v.h0, h1 := h.h1 + v.h1, h2 := h.h2 + v.h2, h3 := h.h3 + v.h3,
    h4 := h.h4 + v.h4, h5 := h.h5 + v.h5, h6 := h.h6 + v.h6, h7 := h.h7 + v.h7 }

/-- The bytes of a buffer from here on. -/
def bytesFrom (buf : Bytes) (off : Nat) : Nat → UInt8 := fun j => buf.getD (off + j) 0

/-- The loop over the whole blocks of a buffer. -/
def processBlocks (buf : Bytes) (n : Nat) (h : Regs) : Regs := (List.range n).foldl (fun h i => processBlock (bytesFrom buf (i * 64)) h) h

/-- The length in bits, at the end of the padding. -/
def writeBits (bits : UInt64) (padded : Nat) (tail : Bytes) : Bytes :=
  (List.range 8).foldl (fun tail i => tail.set (padded - 1 - i) (bits >>> (8 * UInt64.ofNat i)).toUInt8) tail

/-- `tail`, with what has been in it. -/
def tailOf (junk data : Bytes) : Nat × Bytes :=
  let full := data.length / 64
  let rem := data.length - full * 64
  let tail := overwrite junk 0 (slice data (full * 64) rem)
  let tail := overwrite tail rem [0x80]
  let padded := if rem + 9 ≤ 64 then 64 else 128
  let tail := overwrite tail (rem + 1) (List.replicate (padded - rem - 1) 0)
  (padded, writeBits (UInt64.ofNat data.length * 8) padded tail)

def hexDigit (n : UInt32) : Char := ['0', '1', '2', '3', '4', '5', '6', '7', '8', '9', 'a', 'b', 'c', 'd', 'e', 'f'].getD n.toNat '0'

def hexWord (x : UInt32) : List Char := ([28, 24, 20, 16, 12, 8, 4, 0] : List UInt32).map fun b => hexDigit ((x >>> b) &&& 0xf)

def hex (h : Regs) : List Char := [h.h0, h.h1, h.h2, h.h3, h.h4, h.h5, h.h6, h.h7].flatMap hexWord

/-- `sha256_hex`; `junk` is what the buffer on the stack holds. -/
def sha256Hex (junk data : Bytes) : String :=
  let h := processBlocks data (data.length / 64) iv
  let t := tailOf junk data
  String.ofList (hex (processBlocks t.2 (t.1 / 64) h))

/-! ## The digest of the padded data -/

/-- How many zeros come after the delimiter. -/
def zeros (n : Nat) : Nat := (119 - n % 64) % 64

/-- The length in bits, as eight bytes. -/
def lengthField (n : Nat) : Bytes := (List.range 8).reverse.map fun i => UInt8.ofNat (8 * n / 256 ^ i)

def padding (data : Bytes) : Bytes := data ++ 0x80 :: (List.replicate (zeros data.length) 0 ++ lengthField data.length)

abbrev Block := Vector UInt8 64

def blockOf (buf : Bytes) (i : Nat) : Block := Vector.ofFn fun j => buf.getD (i * 64 + j) 0

/-- The padded data, in blocks. -/
def pad (data : Bytes) : List Block := (List.range ((padding data).length / 64)).map (blockOf (padding data))

/-- `process_block` of one block. -/
def compress (h : Regs) (b : Block) : Regs := processBlock (fun j => b.toList.getD j 0) h

variable {data data' junk buf buf' : Bytes} {n k i j : Nat} {h : Regs} {p q : Nat → UInt8}

/-- `process_block` reads 64 bytes. -/
theorem processBlock_congr (heq : ∀ j < 64, p j = q j) : processBlock p h = processBlock q h := by
  have hwords : (List.range 16).map (word p) = (List.range 16).map (word q) := by
    refine List.map_congr_left fun i hi => ?_
    have hi := List.mem_range.mp hi
    rw [word, word, heq _ (by omega), heq _ (by omega), heq _ (by omega), heq _ (by omega)]
  have hschedule : schedule p = schedule q := congrArg (fun w => (List.range 48).foldl (fun w _ => extend w) w) hwords
  simp only [processBlock, hschedule]

theorem getD_blockOf (hj : j < 64) : (blockOf buf i).toList.getD j 0 = buf.getD (i * 64 + j) 0 := by
  rw [blockOf, Vector.toList_ofFn, List.getD_eq_getElem?_getD, List.getElem?_ofFn]
  simp [hj]

/-- **The loop over blocks** of a buffer, where they are blocks of another. -/
theorem processBlocks_eq (heq : ∀ i < n, ∀ j < 64, buf.getD (i * 64 + j) 0 = buf'.getD ((k + i) * 64 + j) 0) :
    processBlocks buf n h = ((List.range n).map fun i => blockOf buf' (k + i)).foldl compress h := by
  rw [processBlocks, List.foldl_map]
  refine List.foldl_ext _ _ h fun h i hi => ?_
  refine processBlock_congr fun j hj => ?_
  rw [getD_blockOf hj]
  exact heq i (List.mem_range.mp hi) j hj

/-! ## The padding -/

theorem length_lengthField : (lengthField n).length = 8 := by simp [lengthField]

theorem length_padding (data : Bytes) : (padding data).length = data.length + 1 + zeros data.length + 8 := by
  simp only [padding, List.length_append, List.length_cons, List.length_replicate, length_lengthField]
  omega

/-- The padding ends with a block. -/
theorem length_padding_mod (data : Bytes) : (padding data).length % 64 = 0 := by
  rw [length_padding, zeros]
  omega

/-- The bytes that `tail` gets are those of the length. -/
theorem bits_eq (hi : i < 8) : ((UInt64.ofNat n * 8) >>> (8 * UInt64.ofNat i)).toUInt8 = UInt8.ofNat (8 * n / 256 ^ i) := by
  refine UInt8.toNat_inj.mp ?_
  have hshift : (8 * UInt64.ofNat i).toNat % 64 = 8 * i := by
    rw [UInt64.toNat_mul, UInt64.toNat_ofNat']
    show 8 * (i % 2 ^ 64) % 2 ^ 64 % 64 = 8 * i
    omega
  rw [UInt64.toNat_toUInt8, UInt64.toNat_shiftRight, UInt8.toNat_ofNat', UInt64.toNat_mul, UInt64.toNat_ofNat', hshift,
    Nat.shiftRight_eq_div_pow]
  show n % 2 ^ 64 * 8 % 2 ^ 64 / 2 ^ (8 * i) % 2 ^ 8 = 8 * n / 256 ^ i % 2 ^ 8
  have hpow : (256 : Nat) ^ i = 2 ^ (8 * i) := by rw [Nat.pow_mul]
  rw [hpow]
  interval_cases i <;> omega

theorem writeBits_eq (hn : k ≤ buf.length) (hk : 8 ≤ k) :
    writeBits (UInt64.ofNat n * 8) k buf = overwrite buf (k - 8) (lengthField n) := by
  have hfield : lengthField n = (List.range 8).reverse.map fun i => ((UInt64.ofNat n * 8) >>> (8 * UInt64.ofNat i)).toUInt8 := by
    refine List.map_congr_left fun i hi => ?_
    have hi : i < 8 := by simpa using hi
    exact (bits_eq hi).symm
  rw [hfield]
  exact sets_eq (fun i => ((UInt64.ofNat n * 8) >>> (8 * UInt64.ofNat i)).toUInt8) hk hn

/-- **The tail** is the end of the padded data. -/
theorem tailOf_spec (data : Bytes) (hjunk : junk.length = 128) : data.length / 64 * 64 + (tailOf junk data).1 = (padding data).length ∧
    (tailOf junk data).2.take (tailOf junk data).1 = (padding data).drop (data.length / 64 * 64) ∧ (tailOf junk data).1 % 64 = 0 := by
  obtain ⟨off, hoff⟩ : ∃ off, off = data.length / 64 * 64 := ⟨_, rfl⟩
  obtain ⟨rem, hrem⟩ : ∃ rem, rem = data.length - off := ⟨_, rfl⟩
  obtain ⟨padded, hpadded⟩ : ∃ padded, padded = if rem + 9 ≤ 64 then 64 else 128 := ⟨_, rfl⟩
  have hle : off ≤ data.length := by omega
  have hlt : rem < 64 := by omega
  have hfits : rem + 9 ≤ padded ∧ padded ≤ 128 ∧ padded % 64 = 0 := by
    rw [hpadded]
    split <;> omega
  have hrest : (slice data off rem).length = rem := length_slice (by omega)
  have hslice : slice data off rem = data.drop off := by
    rw [slice, List.take_of_length_le]
    rw [List.length_drop, hrem]
  have hzeros : padded - rem - 1 = zeros data.length + 8 := by
    rw [zeros, hpadded]
    split <;> omega
  -- the writes before the length are one write
  have hwritten : overwrite (overwrite (overwrite junk 0 (slice data off rem)) rem [0x80]) (rem + 1) (List.replicate (padded - rem - 1) 0) =
      overwrite junk 0 (data.drop off ++ 0x80 :: List.replicate (zeros data.length + 8) 0) := by
    have hfirst : overwrite (overwrite junk 0 (slice data off rem)) (0 + (slice data off rem).length) [0x80] =
        overwrite junk 0 (slice data off rem ++ [0x80]) := overwrite_append (by omega)
    have hsecond : overwrite (overwrite junk 0 (slice data off rem ++ [0x80])) (0 + (slice data off rem ++ [(0x80 : UInt8)]).length)
          (List.replicate (padded - rem - 1) 0) =
        overwrite junk 0 (slice data off rem ++ [0x80] ++ List.replicate (padded - rem - 1) 0) :=
      overwrite_append (by rw [List.length_append, hrest]; simp; omega)
    rw [Nat.zero_add, hrest] at hfirst
    rw [Nat.zero_add, List.length_append, hrest] at hsecond
    rw [hfirst]
    refine hsecond.trans ?_
    rw [hslice, hzeros, List.append_assoc]
    rfl
  have htail : tailOf junk data = (padded, writeBits (UInt64.ofNat data.length * 8) padded
      (overwrite junk 0 (data.drop off ++ 0x80 :: List.replicate (zeros data.length + 8) 0))) := by
    rw [← hwritten, hpadded, hrem, hoff]
    rfl
  have hbody : (data.drop off ++ 0x80 :: List.replicate (zeros data.length + 8) 0).length = padded := by
    rw [List.length_append, List.length_drop, List.length_cons, List.length_replicate]
    omega
  have hlen : (overwrite junk 0 (data.drop off ++ 0x80 :: List.replicate (zeros data.length + 8) 0)).length = junk.length :=
    length_overwrite (by omega)
  rw [htail, ← hoff, writeBits_eq (by omega) (by omega)]
  refine ⟨by rw [length_padding]; omega, ?_, hfits.2.2⟩
  have hcut : (overwrite junk 0 (data.drop off ++ 0x80 :: List.replicate (zeros data.length + 8) 0)).take (padded - 8) =
      data.drop off ++ 0x80 :: List.replicate (zeros data.length) 0 := by
    have hsplit : data.drop off ++ (0x80 : UInt8) :: List.replicate (zeros data.length + 8) 0 =
        (data.drop off ++ 0x80 :: List.replicate (zeros data.length) 0) ++ List.replicate 8 0 := by
      rw [List.append_assoc, List.cons_append, List.replicate_add]
    rw [overwrite, List.take_zero, List.nil_append, hsplit, List.append_assoc]
    refine List.take_left' ?_
    rw [List.length_append, List.length_drop, List.length_cons, List.length_replicate]
    omega
  rw [overwrite, hcut, List.take_left' ?_, padding, List.drop_append_of_le_length hle, List.append_assoc, List.cons_append]
  rw [List.length_append, List.length_append, List.length_drop, List.length_cons, List.length_replicate, length_lengthField]
  omega

theorem getD_of_take {l m : Bytes} {off : Nat} (heq : l.take n = m.drop off) (hj : j < n) : l.getD j 0 = m.getD (off + j) 0 := by
  have hget := congrArg (fun l => l.getD j 0) heq
  simpa [List.getD_eq_getElem?_getD, List.getElem?_take, hj] using hget

/-- **What `sha256_hex` gives** is the digest of the padded data. -/
theorem sha256Hex_eq (hjunk : junk.length = 128) : sha256Hex junk data = String.ofList (hex (digest compress iv pad data)) := by
  obtain ⟨hlen, htail, hmod⟩ := tailOf_spec data hjunk
  have hwhole : processBlocks data (data.length / 64) iv =
      ((List.range (data.length / 64)).map fun i => blockOf (padding data) (0 + i)).foldl compress iv := by
    refine processBlocks_eq fun i hi j hj => ?_
    rw [Nat.zero_add, padding, List.getD_eq_getElem?_getD, List.getD_eq_getElem?_getD, List.getElem?_append_left (by omega)]
  have hrest : ∀ h, processBlocks (tailOf junk data).2 ((tailOf junk data).1 / 64) h =
      ((List.range ((tailOf junk data).1 / 64)).map fun i => blockOf (padding data) (data.length / 64 + i)).foldl compress h := by
    intro h
    refine processBlocks_eq fun i hi j hj => ?_
    rw [getD_of_take htail (by omega)]
    congr 1
    omega
  have hcount : (padding data).length / 64 = data.length / 64 + (tailOf junk data).1 / 64 := by omega
  have hblocks : pad data = ((List.range (data.length / 64)).map fun i => blockOf (padding data) (0 + i)) ++
      (List.range ((tailOf junk data).1 / 64)).map fun i => blockOf (padding data) (data.length / 64 + i) := by
    rw [pad, hcount, List.range_add, List.map_append, List.map_map]
    simp only [Nat.zero_add]
    rfl
  have hdigest : digest compress iv pad data =
      processBlocks (tailOf junk data).2 ((tailOf junk data).1 / 64) (processBlocks data (data.length / 64) iv) := by
    rw [hrest, hwhole, ← List.foldl_append, ← hblocks]
    rfl
  rw [hdigest]
  rfl

/-! ## Nothing is lost -/

theorem lengthField_inj (hn : n < 2 ^ 61) (hk : k < 2 ^ 61) (heq : lengthField n = lengthField k) : n = k := by
  have hbytes : ∀ i < 8, 8 * n / 256 ^ i % 256 = 8 * k / 256 ^ i % 256 := by
    intro i hi
    have hbyte := List.map_inj_left.mp heq i (by simpa using hi)
    simpa using congrArg UInt8.toNat hbyte
  have hbits : 8 * n = 8 * k := eq_of_digits (by omega) (by omega) hbytes
  omega

/-- The last eight bytes are the length. -/
theorem drop_padding : (padding data).drop (data.length + 1 + zeros data.length) = lengthField data.length := by
  rw [padding, ← List.cons_append, ← List.append_assoc]
  refine List.drop_left' ?_
  simp only [List.length_append, List.length_cons, List.length_replicate]
  omega

theorem padding_inj (hdata : data.length < 2 ^ 61) (hdata' : data'.length < 2 ^ 61) (heq : padding data = padding data') : data = data' := by
  have hsame : data.length + 1 + zeros data.length = data'.length + 1 + zeros data'.length := by
    have hlen := congrArg List.length heq
    rw [length_padding, length_padding] at hlen
    omega
  have hlen : data.length = data'.length := by
    refine lengthField_inj hdata hdata' ?_
    rw [← drop_padding, ← drop_padding, heq, hsame]
  have htake := congrArg (List.take data.length) heq
  rwa [padding, padding, List.take_left' rfl, List.take_left' hlen.symm] at htake

/-- A buffer of whole blocks is its blocks. -/
theorem blocks_inj (hbuf : buf.length % 64 = 0) (hbuf' : buf'.length % 64 = 0)
    (heq : (List.range (buf.length / 64)).map (blockOf buf) = (List.range (buf'.length / 64)).map (blockOf buf')) : buf = buf' := by
  have hcount : buf.length / 64 = buf'.length / 64 := by simpa using congrArg List.length heq
  have hlen : buf.length = buf'.length := by omega
  refine List.ext_getElem hlen fun i hi hi' => ?_
  rw [← hcount] at heq
  have hblock := List.map_inj_left.mp heq (i / 64) (List.mem_range.mpr (by omega))
  have hbyte := congrArg (fun b => b.toList.getD (i % 64) 0) hblock
  simp only [getD_blockOf (Nat.mod_lt i (by decide : 64 > 0)), Nat.div_add_mod'] at hbyte
  simpa [List.getD_eq_getElem?_getD, hi, hi'] using hbyte

/-- Data whose length in bits can be written. -/
structure Message where
  data : Bytes
  short : data.length < 2 ^ 61

theorem pad_injective : Function.Injective fun m : Message => pad m.data := by
  intro m m' heq
  have hpadding := blocks_inj (length_padding_mod _) (length_padding_mod _) heq
  obtain ⟨data, hdata⟩ := m
  obtain ⟨data', hdata'⟩ := m'
  cases padding_inj hdata hdata' hpadding
  rfl

/-- The last block ends with the length. -/
theorem pad_last (data : Bytes) : ∃ init b, pad data = init ++ [b] ∧ ∀ j < 8, b.toList.getD (56 + j) 0 = (lengthField data.length).getD j 0 := by
  have hmod := length_padding_mod data
  have hlen := length_padding data
  obtain ⟨count, hcount⟩ : ∃ count, (padding data).length / 64 = count + 1 := ⟨(padding data).length / 64 - 1, by omega⟩
  refine ⟨(List.range count).map (blockOf (padding data)), blockOf (padding data) count, ?_, fun j hj => ?_⟩
  · rw [pad, hcount, List.range_succ, List.map_append]
    rfl
  · have hat : count * 64 + (56 + j) = data.length + 1 + zeros data.length + j := by omega
    rw [getD_blockOf (by omega), hat, ← drop_padding, List.getD_eq_getElem?_getD, List.getD_eq_getElem?_getD, List.getElem?_drop]

theorem length_inj_of_last {n k : Nat} (hn : n < 2 ^ 61) (hk : k < 2 ^ 61)
    (heq : ∀ j < 8, (lengthField n).getD j 0 = (lengthField k).getD j 0) : n = k := by
  refine lengthField_inj hn hk (List.ext_getElem (by rw [length_lengthField, length_lengthField]) fun j hj hj' => ?_)
  have hbyte := heq j (by rwa [length_lengthField] at hj)
  simpa [List.getD_eq_getElem?_getD, hj, hj'] using hbyte

/-! ## Sixty-four digits -/

theorem hexDigit_inj {x y : UInt32} (hx : x.toNat < 16) (hy : y.toNat < 16) (heq : hexDigit x = hexDigit y) : x.toNat = y.toNat := by
  have hall : ∀ i < 16, ∀ j < 16,
      ['0', '1', '2', '3', '4', '5', '6', '7', '8', '9', 'a', 'b', 'c', 'd', 'e', 'f'].getD i '0' =
        ['0', '1', '2', '3', '4', '5', '6', '7', '8', '9', 'a', 'b', 'c', 'd', 'e', 'f'].getD j '0' → i = j := by decide
  exact hall _ hx _ hy heq

theorem toNat_nibble (x b : UInt32) : ((x >>> b) &&& 0xf).toNat = x.toNat / 2 ^ (b.toNat % 32) % 16 := by
  rw [UInt32.toNat_and, UInt32.toNat_shiftRight, Nat.shiftRight_eq_div_pow]
  exact Nat.and_two_pow_sub_one_eq_mod _ 4

theorem hexWord_inj {x y : UInt32} (heq : hexWord x = hexWord y) : x = y := by
  have hdigits : ∀ b ∈ ([28, 24, 20, 16, 12, 8, 4, 0] : List UInt32),
      x.toNat / 2 ^ (b.toNat % 32) % 16 = y.toNat / 2 ^ (b.toNat % 32) % 16 := by
    intro b hb
    have hchar := List.map_inj_left.mp heq b hb
    have hsame := hexDigit_inj (by rw [toNat_nibble]; omega) (by rw [toNat_nibble]; omega) hchar
    rwa [toNat_nibble, toNat_nibble] at hsame
  have hshift : ∀ i < 8, UInt32.ofNat (4 * i) ∈ ([28, 24, 20, 16, 12, 8, 4, 0] : List UInt32) ∧
      2 ^ ((UInt32.ofNat (4 * i)).toNat % 32) = 16 ^ i := by decide
  refine UInt32.toNat_inj.mp (eq_of_digits (b := 16) (n := 8) x.toNat_lt y.toNat_lt fun i hi => ?_)
  obtain ⟨hmem, hpow⟩ := hshift i hi
  rw [← hpow]
  exact hdigits _ hmem

theorem hex_inj {h h' : Regs} (heq : hex h = hex h') : h = h' := by
  have hlen : ∀ x : UInt32, (hexWord x).length = 8 := fun x => by simp [hexWord]
  simp only [hex, List.flatMap_cons, List.flatMap_nil, List.append_nil] at heq
  obtain ⟨h0, heq⟩ := List.append_inj heq (by rw [hlen, hlen])
  obtain ⟨h1, heq⟩ := List.append_inj heq (by rw [hlen, hlen])
  obtain ⟨h2, heq⟩ := List.append_inj heq (by rw [hlen, hlen])
  obtain ⟨h3, heq⟩ := List.append_inj heq (by rw [hlen, hlen])
  obtain ⟨h4, heq⟩ := List.append_inj heq (by rw [hlen, hlen])
  obtain ⟨h5, heq⟩ := List.append_inj heq (by rw [hlen, hlen])
  obtain ⟨h6, h7⟩ := List.append_inj heq (by rw [hlen, hlen])
  cases h
  cases h'
  simp only [Regs.mk.injEq]
  exact ⟨hexWord_inj h0, hexWord_inj h1, hexWord_inj h2, hexWord_inj h3, hexWord_inj h4, hexWord_inj h5, hexWord_inj h6, hexWord_inj h7⟩

example : sha256Hex (List.replicate 128 0xaa) [0x61, 0x62, 0x63] =
    "ba7816bf8f01cfea414140de5dae2223b00361a396177a9cb410ff61f20015ad" := by decide +kernel

end RetailVision.Sha256
