import ConclaveFormal.Lib.LittleEndian
import ConclaveFormal.Lib.Limbs

/-!
# Poly1305 in 26-bit limbs

The accumulator and the key are five limbs of 26 bits; products are summed up in
64-bit columns and reduced modulo 2^130 - 5 only as far as the next chunk needs.
Registers are signed: `wrap32` and `wrap64` stand where the source stores into
one, `/ radix` is its `>> 26` and `% radix` its `& 0x03FFFFFF`.
-/

set_option autoImplicit false

namespace Conclave.NoiseCrypto

open Conclave.Lib

/-- What a 64-bit signed register holds after an exact result was stored into it. -/
def wrap64 (value : Int) : Int := Int.bmod value (2 ^ 64)

theorem wrap64_of_range {value : Int} (low : 0 ≤ value) (high : value < 2 ^ 63) :
    wrap64 value = value := by
  unfold wrap64
  rw [Int.bmod_def]
  split <;> omega

/-- `block` holds the `posn` bytes that do not make a chunk yet. -/
structure Poly1305 where
  nonce : Bytes
  block : Bytes
  h : List Int
  r : List Int
  posn_lt : block.length < 16

namespace Poly1305

def radix : Int := 2 ^ 26

def byteAt (bytes : Bytes) (index : Nat) : Nat := (bytes.getD index 0).toNat

/-! ## The operations -/

/-- The first 16 bytes of the key, without the bits that are masked off. -/
def unpackKey (key : Bytes) : List Nat :=
  [byteAt key 0 ||| byteAt key 1 <<< 8 ||| byteAt key 2 <<< 16 |||
      (byteAt key 3 &&& 0x03) <<< 24,
    (byteAt key 3 &&& 0x0C) >>> 2 ||| (byteAt key 4 &&& 0xFC) <<< 6 ||| byteAt key 5 <<< 14 |||
      (byteAt key 6 &&& 0x0F) <<< 22,
    (byteAt key 6 &&& 0xF0) >>> 4 ||| (byteAt key 7 &&& 0x0F) <<< 4 |||
      (byteAt key 8 &&& 0xFC) <<< 12 ||| (byteAt key 9 &&& 0x3F) <<< 20,
    (byteAt key 9 &&& 0xC0) >>> 6 ||| byteAt key 10 <<< 2 ||| (byteAt key 11 &&& 0x0F) <<< 10 |||
      (byteAt key 12 &&& 0xFC) <<< 18,
    byteAt key 13 ||| byteAt key 14 <<< 8 ||| (byteAt key 15 &&& 0x0F) <<< 16]

/-- A 128-bit chunk; all but a final chunk have the bit above it set. -/
def unpack (chunk : Bytes) (finalChunk : Bool) : List Nat :=
  [byteAt chunk 0 ||| byteAt chunk 1 <<< 8 ||| byteAt chunk 2 <<< 16 |||
      (byteAt chunk 3 &&& 0x03) <<< 24,
    (byteAt chunk 3 &&& 0xFC) >>> 2 ||| byteAt chunk 4 <<< 6 ||| byteAt chunk 5 <<< 14 |||
      (byteAt chunk 6 &&& 0x0F) <<< 22,
    (byteAt chunk 6 &&& 0xF0) >>> 4 ||| byteAt chunk 7 <<< 4 ||| byteAt chunk 8 <<< 12 |||
      (byteAt chunk 9 &&& 0x3F) <<< 20,
    (byteAt chunk 9 &&& 0xC0) >>> 6 ||| byteAt chunk 10 <<< 2 ||| byteAt chunk 11 <<< 10 |||
      byteAt chunk 12 <<< 18,
    (byteAt chunk 13 ||| byteAt chunk 14 <<< 8 ||| byteAt chunk 15 <<< 16) |||
      (if finalChunk then 0 else 1) <<< 24]

def reset (key : Bytes) : Poly1305 where
  nonce := (key.drop 16).take 16
  block := []
  h := List.replicate 5 0
  r := (unpackKey key).map Int.ofNat
  posn_lt := by simp

/-- Adds `c` to `h` and multiplies the sum by `r`. -/
def step (r h c : List Int) : List Int :=
  let t := Limbs.carryAll radix wrap64 0 (Limbs.multiply wrap64 (Limbs.add wrap32 h c) r ++ [0])
  -- Multiply the high 130 bits by 5 and add them to the low 130 bits.
  Limbs.carryAll radix wrap32 0
    (Limbs.add wrap32 (t.take 5) (Limbs.scale wrap32 5 ((t.drop 5).map wrap32)))

def processChunk (poly : Poly1305) (chunk : Bytes) (finalChunk : Bool) : Poly1305 :=
  { poly with h := step poly.r poly.h ((unpack chunk finalChunk).map Int.ofNat) }

def update (poly : Poly1305) (data : Bytes) : Poly1305 :=
  if data = [] then poly
  else if poly.block = [] ∧ 16 ≤ data.length then
    update (poly.processChunk (data.take 16) false) (data.drop 16)
  else
    let temp := min (16 - poly.block.length) data.length
    if room : (poly.block ++ data.take temp).length < 16 then
      update { poly with block := poly.block ++ data.take temp, posn_lt := room } (data.drop temp)
    else
      update ({ poly with block := [], posn_lt := by simp }.processChunk
        (poly.block ++ data.take temp) false) (data.drop temp)
termination_by data.length
decreasing_by
  all_goals
    have nonempty := List.length_pos_iff.mpr ‹data ≠ []›
    have posn := poly.posn_lt
    rw [List.length_drop]
    omega

def pad (poly : Poly1305) : Poly1305 :=
  if poly.block = [] then poly
  else
    { poly with block := [], posn_lt := by simp }.processChunk
      (poly.block ++ List.replicate (16 - poly.block.length) 0) false

/-- The bytes of a number below 2^128 in five limbs. -/
def pack (h : List Nat) : Bytes :=
  let h0 := h.getD 0 0
  let h1 := h.getD 1 0
  let h2 := h.getD 2 0
  let h3 := h.getD 3 0
  let h4 := h.getD 4 0
  [h0, h0 >>> 8, h0 >>> 16, h0 >>> 24 ||| h1 <<< 2, h1 >>> 6, h1 >>> 14, h1 >>> 22 ||| h2 <<< 4,
    h2 >>> 4, h2 >>> 12, h2 >>> 20 ||| h3 <<< 6, h3 >>> 2, h3 >>> 10, h3 >>> 18, h4, h4 >>> 8,
    h4 >>> 16].map UInt8.ofNat

/-- Byte by byte, `carry` being what the byte before has left. -/
def addNonce : Nat → Bytes → Bytes → Bytes
  | carry, nonce :: nonces, byte :: bytes =>
      UInt8.ofNat (carry + nonce.toNat + byte.toNat) ::
        addNonce ((carry + nonce.toNat + byte.toNat) / 256) nonces bytes
  | _, _, _ => []

/-- One more reduction, and a trial subtraction of 2^130 - 5. -/
def reduce (h : List Int) : List Int :=
  let h := Limbs.carryAll radix wrap32 (h.getD 4 0 / radix * 5)
    (h.take 4 ++ [h.getD 4 0 % radix])
  let c := Limbs.carryAll radix wrap32 5 h
  if c.getD 4 0 / radix % 2 = 1 then c else h

def finish (poly : Poly1305) : Bytes :=
  let last :=
    if poly.block = [] then poly
    else
      poly.processChunk (poly.block ++ [1] ++ List.replicate (15 - poly.block.length) 0) true
  addNonce 0 last.nonce (pack ((reduce last.h).map Int.toNat))

end Poly1305

end Conclave.NoiseCrypto
