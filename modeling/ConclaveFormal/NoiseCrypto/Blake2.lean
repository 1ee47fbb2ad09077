import ConclaveFormal.Lib.BlockStream
import ConclaveFormal.Lib.LittleEndian
import ConclaveFormal.NoiseCrypto.MessageDigest

/-!
# BLAKE2b and BLAKE2s

The last block of a message is compressed in another way than the ones before
it, so both objects keep a full block until they are given another byte.
`hash` is the function of the bytes that they compute.
-/

set_option autoImplicit false

namespace Conclave.NoiseCrypto

open Conclave.Lib

/-- What `Blake2bMessageDigest` and `Blake2sMessageDigest` differ in; `sigma` has a row for
each round. -/
structure Blake2 (w : Nat) where
  blockLength : Nat
  parameters : BitVec w
  constants : Vector (BitVec w) 8
  counter : UInt64 → BitVec w × BitVec w
  rotations : Nat × Nat × Nat × Nat
  sigma : List (List Nat)
  blockLength_pos : 0 < blockLength

/-- `block` holds the `posn` bytes that were not compressed yet. -/
structure Blake2Digest {w : Nat} (blake : Blake2 w) where
  h : Vector (BitVec w) 8
  block : Bytes
  length : UInt64
  posn_le : block.length ≤ blake.blockLength

namespace Blake2

variable {w : Nat} (blake : Blake2 w)

/-! ## The compression function -/

def quarterRound (m : List (BitVec w)) (row : List Nat) (a b c d : Fin (8 + 8)) (i : Nat)
    (v : Vector (BitVec w) (8 + 8)) : Vector (BitVec w) (8 + 8) :=
  let (first, second, third, fourth) := blake.rotations
  let v := v.set a (v[a] + (v[b] + m.getD (row.getD (2 * i) 0) 0))
  let v := v.set d ((v[d] ^^^ v[a]).rotateRight first)
  let v := v.set c (v[c] + v[d])
  let v := v.set b ((v[b] ^^^ v[c]).rotateRight second)
  let v := v.set a (v[a] + (v[b] + m.getD (row.getD (2 * i + 1) 0) 0))
  let v := v.set d ((v[d] ^^^ v[a]).rotateRight third)
  let v := v.set c (v[c] + v[d])
  v.set b ((v[b] ^^^ v[c]).rotateRight fourth)

/-- A column round and a diagonal round. -/
def round (m : List (BitVec w)) (v : Vector (BitVec w) (8 + 8)) (row : List Nat) :
    Vector (BitVec w) (8 + 8) :=
  let v := blake.quarterRound m row 0 4 8 12 0 v
  let v := blake.quarterRound m row 1 5 9 13 1 v
  let v := blake.quarterRound m row 2 6 10 14 2 v
  let v := blake.quarterRound m row 3 7 11 15 3 v
  let v := blake.quarterRound m row 0 5 10 15 4 v
  let v := blake.quarterRound m row 1 6 11 12 5 v
  let v := blake.quarterRound m row 2 7 8 13 6 v
  blake.quarterRound m row 3 4 9 14 7 v

/-- `f0` is all ones in the last block. -/
def transform (h : Vector (BitVec w) 8) (block : Bytes) (length : UInt64) (f0 : BitVec w) :
    Vector (BitVec w) 8 :=
  let m := (blocks (w / 8) block).map fun word => BitVec.ofNat w (ofLittleEndian word)
  let (low, high) := blake.counter length
  let tail := ((blake.constants.set 4 (blake.constants[4] ^^^ low)).set 5
    (blake.constants[5] ^^^ high)).set 6 (blake.constants[6] ^^^ f0)
  let v := blake.sigma.foldl (blake.round m) (h ++ tail)
  Vector.ofFn fun index : Fin 8 => h[index] ^^^ (v[index.val] ^^^ v[index.val + 8])

/-- Each word, least significant byte first. -/
def output (h : Vector (BitVec w) 8) : Bytes :=
  h.toList.flatMap fun word => littleEndian (w / 8) word.toNat

/-! ## The engine -/

def engineReset : Blake2Digest blake where
  h := blake.constants.set 0 (blake.constants[0] ^^^ blake.parameters)
  block := []
  length := 0
  posn_le := Nat.zero_le _

/-- A full block is compressed once there is more. -/
def flush (digest : Blake2Digest blake) : Blake2Digest blake :=
  if blake.blockLength ≤ digest.block.length then
    { blake.engineReset with
      h := blake.transform digest.h digest.block digest.length 0
      length := digest.length }
  else digest

theorem flush_room (digest : Blake2Digest blake) :
    (blake.flush digest).block.length < blake.blockLength := by
  have positive := blake.blockLength_pos
  rw [flush]
  split
  · exact positive
  · omega

def engineUpdate (digest : Blake2Digest blake) (input : UInt8) : Blake2Digest blake :=
  { blake.flush digest with
    block := (blake.flush digest).block ++ [input]
    length := digest.length + 1
    posn_le := by
      have room := blake.flush_room digest
      rw [List.length_append, List.length_singleton]
      omega }

def engineUpdateAll (digest : Blake2Digest blake) (input : Bytes) : Blake2Digest blake :=
  if input = [] then digest
  else
    let temp := min (blake.blockLength - (blake.flush digest).block.length) input.length
    engineUpdateAll
      { blake.flush digest with
        block := (blake.flush digest).block ++ input.take temp
        length := digest.length + UInt64.ofNat temp
        posn_le := by
          have room := blake.flush_room digest
          rw [List.length_append, List.length_take]
          omega }
      (input.drop temp)
termination_by input.length
decreasing_by
  have nonempty := List.length_pos_iff.mpr ‹input ≠ []›
  have room := blake.flush_room digest
  rw [List.length_drop]
  omega

/-- The object is not reset: only `h` changes. -/
def engineDigest (digest : Blake2Digest blake) : Bytes × Blake2Digest blake :=
  let h := blake.transform digest.h
    (digest.block ++ List.replicate (blake.blockLength - digest.block.length) 0) digest.length
    (BitVec.allOnes w)
  (output h, { digest with h })

def messageDigest : MessageDigest where
  State := Blake2Digest blake
  new := blake.engineReset
  engineGetDigestLength := w
  engineReset := fun _ => blake.engineReset
  engineUpdate := blake.engineUpdate
  engineUpdateAll := blake.engineUpdateAll
  engineDigest := blake.engineDigest

/-! ## The function of the message -/

/-- The hash value and the number of bytes it has taken. -/
def compress (state : Vector (BitVec w) 8 × Nat) (block : Bytes) : Vector (BitVec w) 8 × Nat :=
  (blake.transform state.1 block (UInt64.ofNat (state.2 + block.length)) 0,
    state.2 + block.length)

/-- The bytes that are not in the last block. -/
def wholeLength (length : Nat) : Nat := (length - 1) / blake.blockLength * blake.blockLength

def hash (data : Bytes) : Bytes :=
  let whole := data.take (blake.wholeLength data.length)
  let last := data.drop (blake.wholeLength data.length)
  let (h, _) := overBlocks blake.blockLength blake.compress (blake.engineReset.h, 0) whole
  output (blake.transform h (last ++ List.replicate (blake.blockLength - last.length) 0)
    (UInt64.ofNat data.length) (BitVec.allOnes w))

theorem output_length (h : Vector (BitVec w) 8) : (output h).length = 8 * (w / 8) := by
  rw [output, List.length_flatMap]
  simp only [littleEndian_length, List.map_const', Vector.length_toList, List.sum_replicate_nat]

/-! ## The object computes the function -/

variable {blake}

/-- `data` was given since the last reset: `whole` is compressed, the rest is in the block. -/
structure Absorbed (digest : Blake2Digest blake) (data : Bytes) : Prop where
  split : ∃ whole, data = whole ++ digest.block ∧ blake.blockLength ∣ whole.length ∧
    overBlocks blake.blockLength blake.compress (blake.engineReset.h, 0) whole =
      (digest.h, whole.length)
  counted : digest.length = UInt64.ofNat data.length

/-- The last block is not compressed before there is more. -/
def Keeps (digest : Blake2Digest blake) (data : Bytes) : Prop := digest.block = [] → data = []

theorem reset_absorbed : Absorbed blake.engineReset [] :=
  ⟨⟨[], rfl, Nat.dvd_zero _, overBlocks_nil⟩, rfl⟩

theorem Absorbed.flush {digest : Blake2Digest blake} {data : Bytes}
    (absorbed : Absorbed digest data) : Absorbed (blake.flush digest) data := by
  rw [Blake2.flush]
  split
  · rename_i full
    obtain ⟨⟨whole, split, divides, compressed⟩, counted⟩ := absorbed
    have length : digest.block.length = blake.blockLength := by
      have posn := digest.posn_le
      omega
    refine ⟨⟨whole ++ digest.block, ?_, ?_, ?_⟩, counted⟩
    · exact split.trans (List.append_nil _).symm
    · rw [List.length_append, length]
      exact Nat.dvd_add divides (Nat.dvd_refl _)
    · rw [overBlocks_concat blake.blockLength_pos divides length, compressed, compress,
        ← List.length_append, ← split, ← counted]
  · exact absorbed

theorem flush_length (digest : Blake2Digest blake) :
    (blake.flush digest).length = digest.length := by
  rw [flush]
  split <;> rfl

/-- Bytes that fit in the block are kept there. -/
theorem Absorbed.keep {digest next : Blake2Digest blake} {data more : Bytes}
    (absorbed : Absorbed digest data) (h : next.h = digest.h)
    (block : next.block = digest.block ++ more)
    (length : next.length = digest.length + UInt64.ofNat more.length) :
    Absorbed next (data ++ more) := by
  obtain ⟨⟨whole, split, divides, compressed⟩, counted⟩ := absorbed
  refine ⟨⟨whole, ?_, divides, by rw [compressed, h]⟩, ?_⟩
  · rw [split, block, List.append_assoc]
  · rw [length, counted, List.length_append, UInt64.ofNat_add]

theorem Absorbed.update {digest : Blake2Digest blake} {data : Bytes}
    (absorbed : Absorbed digest data) (input : UInt8) :
    Absorbed (blake.engineUpdate digest input) (data ++ [input]) := by
  rw [engineUpdate]
  refine absorbed.flush.keep rfl rfl ?_
  rw [flush_length]
  rfl

theorem keeps_update (digest : Blake2Digest blake) (data : Bytes) (input : UInt8) :
    Keeps (blake.engineUpdate digest input) data := by
  intro empty
  rw [engineUpdate] at empty
  simp at empty

theorem Absorbed.updateAll {digest : Blake2Digest blake} {data : Bytes}
    (absorbed : Absorbed digest data) (keeps : Keeps digest data) (input : Bytes) :
    Absorbed (blake.engineUpdateAll digest input) (data ++ input) ∧
      Keeps (blake.engineUpdateAll digest input) (data ++ input) := by
  induction digest, input using Blake2.engineUpdateAll.induct generalizing data with
  | case1 digest =>
      rw [engineUpdateAll, if_pos rfl, List.append_nil]
      exact ⟨absorbed, keeps⟩
  | case2 digest input nonempty temp =>
      rename_i ih
      rw [engineUpdateAll, if_neg nonempty]
      have some := List.length_pos_iff.mpr nonempty
      have room := blake.flush_room digest
      have taken : (input.take temp).length = temp := by
        rw [List.length_take]
        omega
      have rest := ih (@Absorbed.keep _ _ _ _ _ (input.take temp) absorbed.flush rfl rfl
        (by rw [taken, flush_length])) (by
          intro empty
          have lengths := congrArg List.length empty
          rw [List.length_append, taken, List.length_nil] at lengths
          omega)
      rwa [List.append_assoc, List.take_append_drop] at rest

theorem wholeLength_eq {whole block : Nat} (divides : blake.blockLength ∣ whole)
    (short : block ≤ blake.blockLength) (keeps : block = 0 → whole = 0) :
    blake.wholeLength (whole + block) = whole := by
  have positive := blake.blockLength_pos
  obtain ⟨count, rfl⟩ := divides
  rw [wholeLength]
  by_cases empty : block = 0
  · rw [empty, keeps empty, Nat.add_zero, Nat.zero_sub, Nat.zero_div, Nat.zero_mul]
  · have last : blake.blockLength * count + block - 1 =
        (block - 1) + blake.blockLength * count := by omega
    rw [last, Nat.add_mul_div_left _ _ positive, Nat.div_eq_of_lt (by omega), Nat.zero_add,
      Nat.mul_comm]

theorem Absorbed.digest {digest : Blake2Digest blake} {data : Bytes}
    (absorbed : Absorbed digest data) (keeps : Keeps digest data) :
    (blake.engineDigest digest).1 = blake.hash data := by
  obtain ⟨⟨whole, split, divides, compressed⟩, counted⟩ := absorbed
  have length : blake.wholeLength data.length = whole.length := by
    rw [split, List.length_append]
    refine wholeLength_eq divides digest.posn_le ?_
    intro empty
    have none := keeps (List.length_eq_zero_iff.mp empty)
    rw [none] at split
    rw [(List.append_eq_nil_iff.mp split.symm).1, List.length_nil]
  have front : data.take whole.length = whole := by
    rw [split, List.take_left]
  have last : data.drop whole.length = digest.block := by
    rw [split, List.drop_left]
  rw [hash, length, front, last, compressed, ← counted]
  rfl

def computes (blake : Blake2 w) : blake.messageDigest.Computes blake.hash where
  Absorbed digest data := Absorbed digest data ∧ Keeps digest data
  reset _ := ⟨reset_absorbed, fun _ => rfl⟩
  update input absorbed := ⟨absorbed.1.update input, keeps_update _ _ input⟩
  updateAll input absorbed := absorbed.1.updateAll absorbed.2 input
  digest absorbed := absorbed.1.digest absorbed.2

end Blake2

/-! ## The two classes -/

def sigmaRows : List (List Nat) :=
  [[0, 1, 2, 3, 4, 5, 6, 7, 8, 9, 10, 11, 12, 13, 14, 15],
    [14, 10, 4, 8, 9, 15, 13, 6, 1, 12, 0, 2, 11, 7, 5, 3],
    [11, 8, 12, 0, 5, 2, 15, 13, 10, 14, 3, 6, 7, 1, 9, 4],
    [7, 9, 3, 1, 13, 12, 11, 14, 2, 6, 5, 10, 4, 0, 15, 8],
    [9, 0, 5, 7, 2, 4, 10, 15, 14, 1, 11, 12, 6, 8, 3, 13],
    [2, 12, 6, 10, 0, 11, 8, 3, 4, 13, 7, 5, 15, 14, 1, 9],
    [12, 5, 1, 15, 14, 13, 4, 10, 0, 7, 6, 3, 9, 2, 8, 11],
    [13, 11, 7, 14, 12, 1, 3, 9, 5, 0, 15, 4, 8, 6, 2, 10],
    [6, 15, 14, 9, 11, 3, 0, 8, 12, 2, 13, 7, 1, 4, 10, 5],
    [10, 2, 8, 4, 7, 6, 1, 5, 15, 11, 9, 14, 3, 12, 13, 0]]

namespace Blake2bMessageDigest

/-- The first two rows come again. -/
def sigma : List (List Nat) := sigmaRows ++ sigmaRows.take 2

def blake : Blake2 64 where
  blockLength := 128
  parameters := 0x01010040
  constants :=
    #v[0x6a09e667f3bcc908, 0xbb67ae8584caa73b, 0x3c6ef372fe94f82b, 0xa54ff53a5f1d36f1,
      0x510e527fade682d1, 0x9b05688c2b3e6c1f, 0x1f83d9abfb41bd6b, 0x5be0cd19137e2179]
  counter := fun length => (length.toBitVec, 0)
  rotations := (32, 24, 16, 63)
  sigma := sigma
  blockLength_pos := by decide

end Blake2bMessageDigest

namespace Blake2sMessageDigest

def sigma : List (List Nat) := sigmaRows

def blake : Blake2 32 where
  blockLength := 64
  parameters := 0x01010020
  constants :=
    #v[0x6A09E667, 0xBB67AE85, 0x3C6EF372, 0xA54FF53A, 0x510E527F, 0x9B05688C, 0x1F83D9AB,
      0x5BE0CD19]
  counter := fun length => (length.toUInt32.toBitVec, (length >>> 32).toUInt32.toBitVec)
  rotations := (16, 12, 8, 7)
  sigma := sigma
  blockLength_pos := by decide

end Blake2sMessageDigest

end Conclave.NoiseCrypto
