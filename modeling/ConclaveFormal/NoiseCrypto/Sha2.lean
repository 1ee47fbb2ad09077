import ConclaveFormal.Lib.BlockStream
import ConclaveFormal.Lib.LittleEndian
import ConclaveFormal.NoiseCrypto.MessageDigest

/-!
# SHA-256 and SHA-512

Both fill a block and compress it as soon as it is full.  `hash` is the function
of the standard, which pads the whole message first; the objects compute it
however the message is cut up.
-/

set_option autoImplicit false

namespace Conclave.NoiseCrypto

open Conclave.Lib

/-- The hash value, and the working variables of the compression function. -/
structure Registers (w : Nat) where
  a : BitVec w
  b : BitVec w
  c : BitVec w
  d : BitVec w
  e : BitVec w
  f : BitVec w
  g : BitVec w
  h : BitVec w
  deriving DecidableEq

namespace Registers

variable {w : Nat}

def toList (r : Registers w) : List (BitVec w) := [r.a, r.b, r.c, r.d, r.e, r.f, r.g, r.h]

def add (r s : Registers w) : Registers w where
  a := r.a + s.a
  b := r.b + s.b
  c := r.c + s.c
  d := r.d + s.d
  e := r.e + s.e
  f := r.f + s.f
  g := r.g + s.g
  h := r.h + s.h

end Registers

/-- What `SHA256MessageDigest` and `SHA512MessageDigest` differ in.  The bit after the
message and its length take `overhead` bytes of the last block. -/
structure Sha2 (w : Nat) where
  blockLength : Nat
  overhead : Nat
  initial : Registers w
  k : List (BitVec w)
  sumA : BitVec w → BitVec w
  sumE : BitVec w → BitVec w
  extendNear : BitVec w → BitVec w
  extendFar : BitVec w → BitVec w
  overhead_ge : 9 ≤ overhead
  overhead_le : overhead ≤ blockLength

/-- `block` holds the `posn` bytes that do not make a block yet; `length` is in bits. -/
structure Sha2Digest {w : Nat} (sha : Sha2 w) where
  h : Registers w
  block : Bytes
  length : UInt64
  posn_lt : block.length < sha.blockLength

namespace Sha2

variable {w : Nat} (sha : Sha2 w)

/-! ## The compression function -/

/-- A word, most significant byte first. -/
def word (bytes : Bytes) : BitVec w :=
  bytes.foldl (fun word byte => word <<< 8 ||| BitVec.ofNat w byte.toNat) 0

/-- The words of the block, extended to one for each round. -/
def schedule (m : Bytes) : Array (BitVec w) :=
  (List.range' 16 (sha.k.length - 16)).foldl
    (fun words index =>
      words.push (words.getD (index - 16) 0 + words.getD (index - 7) 0 +
        sha.extendFar (words.getD (index - 15) 0) + sha.extendNear (words.getD (index - 2) 0)))
    ((blocks (w / 8) m).map word).toArray

def round (r : Registers w) (k word : BitVec w) : Registers w :=
  let temp1 := r.h + k + word + sha.sumE r.e + ((r.e &&& r.f) ^^^ (~~~r.e &&& r.g))
  let temp2 := sha.sumA r.a + ((r.a &&& r.b) ^^^ (r.a &&& r.c) ^^^ (r.b &&& r.c))
  { a := temp1 + temp2, b := r.a, c := r.b, d := r.c,
    e := r.d + temp1, f := r.e, g := r.f, h := r.g }

def transform (h : Registers w) (m : Bytes) : Registers w :=
  h.add ((sha.k.zip (sha.schedule m).toList).foldl (fun r (k, word) => sha.round r k word) h)

/-- Each word, most significant byte first. -/
def output (h : Registers w) : Bytes := h.toList.flatMap fun word => bigEndian (w / 8) word.toNat

/-! ## The engine -/

def engineReset : Sha2Digest sha where
  h := sha.initial
  block := []
  length := 0
  posn_lt := by
    have := sha.overhead_ge
    have := sha.overhead_le
    rw [List.length_nil]
    omega

def engineUpdate (digest : Sha2Digest sha) (input : UInt8) : Sha2Digest sha :=
  if room : (digest.block ++ [input]).length < sha.blockLength then
    { digest with
      block := digest.block ++ [input]
      length := digest.length + 8
      posn_lt := room }
  else
    { sha.engineReset with
      h := sha.transform digest.h (digest.block ++ [input])
      length := digest.length + 8 }

def engineUpdateAll (digest : Sha2Digest sha) (input : Bytes) : Sha2Digest sha :=
  if input = [] then digest
  else if digest.block = [] ∧ sha.blockLength ≤ input.length then
    engineUpdateAll
      { digest with
        h := sha.transform digest.h (input.take sha.blockLength)
        length := digest.length + UInt64.ofNat (sha.blockLength * 8) }
      (input.drop sha.blockLength)
  else
    let temp := min (sha.blockLength - digest.block.length) input.length
    let length := digest.length + UInt64.ofNat (temp * 8)
    if room : (digest.block ++ input.take temp).length < sha.blockLength then
      engineUpdateAll
        { digest with block := digest.block ++ input.take temp, length, posn_lt := room }
        (input.drop temp)
    else
      engineUpdateAll
        { sha.engineReset with
          h := sha.transform digest.h (digest.block ++ input.take temp)
          length }
        (input.drop temp)
termination_by input.length
decreasing_by
  all_goals
    have nonempty := List.length_pos_iff.mpr ‹input ≠ []›
    have posn := digest.posn_lt
    rw [List.length_drop]
    omega

/-- The object is not reset: `h` and `length` stay. -/
def engineDigest (digest : Sha2Digest sha) : Bytes × Sha2Digest sha :=
  let posn := digest.block.length
  let (h, block) :=
    if posn ≤ sha.blockLength - sha.overhead then
      (digest.h, digest.block ++ 0x80 :: List.replicate (sha.blockLength - 8 - (posn + 1)) 0)
    else
      (sha.transform digest.h
          (digest.block ++ 0x80 :: List.replicate (sha.blockLength - (posn + 1)) 0),
        List.replicate (sha.blockLength - 8) 0)
  let h := sha.transform h (block ++ bigEndian 8 digest.length.toNat)
  (output h, { sha.engineReset with h, length := digest.length })

def messageDigest : MessageDigest where
  State := Sha2Digest sha
  new := sha.engineReset
  engineGetDigestLength := w
  engineReset := fun _ => sha.engineReset
  engineUpdate := sha.engineUpdate
  engineUpdateAll := sha.engineUpdateAll
  engineDigest := sha.engineDigest

/-! ## The standard -/

/-- The bytes from a one bit to the length of the message in bits fill its last block. -/
def padding (length : Nat) : Bytes :=
  0x80 :: List.replicate
      ((2 * sha.blockLength - sha.overhead - length % sha.blockLength) % sha.blockLength) 0 ++
    bigEndian (sha.overhead - 1) (8 * length % 2 ^ 64)

def hash (data : Bytes) : Bytes :=
  output (overBlocks sha.blockLength sha.transform sha.initial (data ++ sha.padding data.length))

theorem output_length (h : Registers w) : (output h).length = 8 * (w / 8) := by
  simp only [output, Registers.toList, List.flatMap_cons, List.flatMap_nil, List.length_append,
    bigEndian_length, List.length_nil]
  omega

/-! ## The object computes the function -/

variable {sha}

theorem blockLength_pos (sha : Sha2 w) : 0 < sha.blockLength := by
  have ge := sha.overhead_ge
  have le := sha.overhead_le
  omega

/-- `data` was given since the last reset: `whole` is compressed, the rest is in the block. -/
structure Absorbed (digest : Sha2Digest sha) (data : Bytes) : Prop where
  split : ∃ whole, data = whole ++ digest.block ∧ sha.blockLength ∣ whole.length ∧
    digest.h = overBlocks sha.blockLength sha.transform sha.initial whole
  counted : digest.length = UInt64.ofNat (data.length * 8)

theorem reset_absorbed : Absorbed sha.engineReset [] :=
  ⟨⟨[], rfl, Nat.dvd_zero _, overBlocks_nil.symm⟩, rfl⟩

theorem counted_append {length : UInt64} {data : Bytes}
    (counted : length = UInt64.ofNat (data.length * 8)) (more : Bytes) :
    length + UInt64.ofNat (more.length * 8) = UInt64.ofNat ((data ++ more).length * 8) := by
  rw [counted, List.length_append, Nat.add_mul, UInt64.ofNat_add]

/-- Bytes that fit in the block are kept there. -/
theorem Absorbed.keep {digest next : Sha2Digest sha} {data more : Bytes}
    (absorbed : Absorbed digest data) (h : next.h = digest.h)
    (block : next.block = digest.block ++ more)
    (length : next.length = digest.length + UInt64.ofNat (more.length * 8)) :
    Absorbed next (data ++ more) := by
  obtain ⟨⟨whole, split, divides, compressed⟩, counted⟩ := absorbed
  refine ⟨⟨whole, ?_, divides, h.trans compressed⟩, length.trans (counted_append counted more)⟩
  rw [split, block, List.append_assoc]

/-- Bytes that fill the block are compressed with it. -/
theorem Absorbed.fill {digest next : Sha2Digest sha} {data more : Bytes}
    (absorbed : Absorbed digest data)
    (full : (digest.block ++ more).length = sha.blockLength)
    (h : next.h = sha.transform digest.h (digest.block ++ more)) (block : next.block = [])
    (length : next.length = digest.length + UInt64.ofNat (more.length * 8)) :
    Absorbed next (data ++ more) := by
  obtain ⟨⟨whole, split, divides, compressed⟩, counted⟩ := absorbed
  refine ⟨⟨whole ++ (digest.block ++ more), ?_, ?_, ?_⟩,
    length.trans (counted_append counted more)⟩
  · rw [split, block, List.append_nil, List.append_assoc]
  · rw [List.length_append, full]
    exact Nat.dvd_add divides (Nat.dvd_refl _)
  · rw [overBlocks_concat sha.blockLength_pos divides full, ← compressed, h]

theorem Absorbed.update {digest : Sha2Digest sha} {data : Bytes}
    (absorbed : Absorbed digest data) (input : UInt8) :
    Absorbed (sha.engineUpdate digest input) (data ++ [input]) := by
  rw [engineUpdate]
  split
  · exact absorbed.keep rfl rfl rfl
  · rename_i full
    have posn := digest.posn_lt
    rw [List.length_append, List.length_singleton] at full
    refine absorbed.fill ?_ rfl rfl rfl
    rw [List.length_append, List.length_singleton]
    omega

theorem Absorbed.updateAll {digest : Sha2Digest sha} {data : Bytes}
    (absorbed : Absorbed digest data) (input : Bytes) :
    Absorbed (sha.engineUpdateAll digest input) (data ++ input) := by
  induction digest, input using Sha2.engineUpdateAll.induct generalizing data with
  | case1 digest =>
      rw [engineUpdateAll, if_pos rfl, List.append_nil]
      exact absorbed
  | case2 digest input nonempty direct ih =>
      rw [engineUpdateAll, if_neg nonempty, if_pos direct]
      have taken : (input.take sha.blockLength).length = sha.blockLength := by
        rw [List.length_take]
        omega
      have alone : sha.transform digest.h (input.take sha.blockLength) =
          sha.transform digest.h (digest.block ++ input.take sha.blockLength) := by
        rw [direct.1, List.nil_append]
      have rest := ih (@Absorbed.fill _ _ _ _ _ (input.take sha.blockLength) absorbed
        (by rw [direct.1, List.nil_append, taken]) alone direct.1 (by rw [taken]))
      rwa [List.append_assoc, List.take_append_drop] at rest
  | case3 digest input nonempty indirect temp length room =>
      rename_i ih
      rw [engineUpdateAll, if_neg nonempty, if_neg indirect]
      simp only
      rw [dif_pos room]
      have taken : (input.take temp).length = temp := by
        rw [List.length_take]
        omega
      have rest := ih (@Absorbed.keep _ _ _ _ _ (input.take temp) absorbed rfl rfl
        (by rw [taken]))
      rwa [List.append_assoc, List.take_append_drop] at rest
  | case4 digest input nonempty indirect temp length room =>
      rename_i ih
      rw [engineUpdateAll, if_neg nonempty, if_neg indirect]
      simp only
      rw [dif_neg room]
      have taken : (input.take temp).length = temp := by
        rw [List.length_take]
        omega
      have full : (digest.block ++ input.take temp).length = sha.blockLength := by
        have posn := digest.posn_lt
        rw [List.length_append, taken] at room ⊢
        omega
      have rest := ih (@Absorbed.fill _ _ _ _ _ (input.take temp) absorbed full rfl rfl
        (by rw [taken]))
      rwa [List.append_assoc, List.take_append_drop] at rest

/-- Bytes above the value are zero. -/
theorem bigEndian_add {value : Nat} (width : Nat) (fits : value < 256 ^ width) (count : Nat) :
    bigEndian (count + width) value = List.replicate count 0 ++ bigEndian width value := by
  induction count with
  | zero => rw [Nat.zero_add, List.replicate_zero, List.nil_append]
  | succ count ih =>
      have small : value < 256 ^ (count + width) := by
        refine lt_of_lt_of_le fits (Nat.pow_le_pow_right (by decide) ?_)
        omega
      rw [Nat.succ_add, bigEndian, ih, Nat.div_eq_of_lt small, List.replicate_succ,
        List.cons_append]
      rfl

theorem padding_eq (sha : Sha2 w) (length : Nat) :
    sha.padding length =
      0x80 :: List.replicate ((2 * sha.blockLength - sha.overhead - length % sha.blockLength) %
          sha.blockLength + (sha.overhead - 9)) 0 ++ bigEndian 8 (8 * length % 2 ^ 64) := by
  have overhead := sha.overhead_ge
  have width : sha.overhead - 1 = (sha.overhead - 9) + 8 := by omega
  have fits : 8 * length % 2 ^ 64 < 256 ^ 8 := Nat.mod_lt _ (by decide)
  rw [padding, width, bigEndian_add 8 fits, List.replicate_add]
  simp only [List.cons_append, List.append_assoc]

theorem Absorbed.digest {digest : Sha2Digest sha} {data : Bytes}
    (absorbed : Absorbed digest data) : (sha.engineDigest digest).1 = sha.hash data := by
  obtain ⟨⟨whole, split, divides, compressed⟩, counted⟩ := absorbed
  have positive := sha.blockLength_pos
  have overhead := sha.overhead_ge
  have overheadLe := sha.overhead_le
  have posn := digest.posn_lt
  have rest : data.length % sha.blockLength = digest.block.length := by
    obtain ⟨count, length⟩ := divides
    rw [split, List.length_append, length, Nat.mul_add_mod, Nat.mod_eq_of_lt posn]
  have bits : digest.length.toNat = 8 * data.length % 2 ^ 64 := by
    rw [counted, UInt64.toNat_ofNat', Nat.mul_comm]
  rw [hash, padding_eq, rest, split, List.append_assoc, overBlocks_append positive _ divides,
    ← compressed, ← split, ← bits, engineDigest]
  have encoded : (bigEndian 8 digest.length.toNat).length = 8 := bigEndian_length 8 _
  by_cases short : digest.block.length ≤ sha.blockLength - sha.overhead
  · -- The length fits in the block that was begun.
    have zeros : (2 * sha.blockLength - sha.overhead - digest.block.length) % sha.blockLength +
        (sha.overhead - 9) = sha.blockLength - 8 - (digest.block.length + 1) := by
      rw [show 2 * sha.blockLength - sha.overhead - digest.block.length =
          sha.blockLength - sha.overhead - digest.block.length + sha.blockLength by omega,
        Nat.add_mod_right, Nat.mod_eq_of_lt (by omega)]
      omega
    simp only [if_pos short, zeros]
    rw [overBlocks_single (by simp) (by
      simp only [List.length_append, List.length_cons, List.length_replicate, encoded]
      omega)]
    simp
  · have zeros : (2 * sha.blockLength - sha.overhead - digest.block.length) % sha.blockLength +
        (sha.overhead - 9) =
          (sha.blockLength - (digest.block.length + 1)) + (sha.blockLength - 8) := by
      rw [Nat.mod_eq_of_lt (by omega)]
      omega
    simp only [if_neg short, zeros]
    have first : (digest.block ++
        0x80 :: List.replicate (sha.blockLength - (digest.block.length + 1)) 0).length =
          sha.blockLength := by
      simp only [List.length_append, List.length_cons, List.length_replicate]
      omega
    have two : digest.block ++ ((0x80 :: List.replicate ((sha.blockLength -
        (digest.block.length + 1)) + (sha.blockLength - 8)) 0) ++
          bigEndian 8 digest.length.toNat) =
        (digest.block ++ 0x80 :: List.replicate (sha.blockLength - (digest.block.length + 1)) 0) ++
          (List.replicate (sha.blockLength - 8) 0 ++ bigEndian 8 digest.length.toNat) := by
      rw [List.replicate_add]
      simp only [List.cons_append, List.append_assoc]
    rw [two, overBlocks_append positive _ (by rw [first]),
      overBlocks_single (by simp) first.le, overBlocks_single (by
        rw [← List.length_pos_iff, List.length_append, encoded]
        omega) (by
        rw [List.length_append, List.length_replicate, encoded]
        omega)]

def computes (sha : Sha2 w) : sha.messageDigest.Computes sha.hash where
  Absorbed := Absorbed
  reset _ := reset_absorbed
  update input absorbed := absorbed.update input
  updateAll input absorbed := absorbed.updateAll input
  digest absorbed := absorbed.digest

end Sha2

/-! ## The two classes -/

namespace SHA256MessageDigest

def k : List (BitVec 32) :=
  [0x428a2f98, 0x71374491, 0xb5c0fbcf, 0xe9b5dba5, 0x3956c25b, 0x59f111f1, 0x923f82a4, 0xab1c5ed5,
    0xd807aa98, 0x12835b01, 0x243185be, 0x550c7dc3, 0x72be5d74, 0x80deb1fe, 0x9bdc06a7, 0xc19bf174,
    0xe49b69c1, 0xefbe4786, 0x0fc19dc6, 0x240ca1cc, 0x2de92c6f, 0x4a7484aa, 0x5cb0a9dc, 0x76f988da,
    0x983e5152, 0xa831c66d, 0xb00327c8, 0xbf597fc7, 0xc6e00bf3, 0xd5a79147, 0x06ca6351, 0x14292967,
    0x27b70a85, 0x2e1b2138, 0x4d2c6dfc, 0x53380d13, 0x650a7354, 0x766a0abb, 0x81c2c92e, 0x92722c85,
    0xa2bfe8a1, 0xa81a664b, 0xc24b8b70, 0xc76c51a3, 0xd192e819, 0xd6990624, 0xf40e3585, 0x106aa070,
    0x19a4c116, 0x1e376c08, 0x2748774c, 0x34b0bcb5, 0x391c0cb3, 0x4ed8aa4a, 0x5b9cca4f, 0x682e6ff3,
    0x748f82ee, 0x78a5636f, 0x84c87814, 0x8cc70208, 0x90befffa, 0xa4506ceb, 0xbef9a3f7, 0xc67178f2]

def sha : Sha2 32 where
  blockLength := 64
  overhead := 9
  initial :=
    { a := 0x6A09E667, b := 0xBB67AE85, c := 0x3C6EF372, d := 0xA54FF53A,
      e := 0x510E527F, f := 0x9B05688C, g := 0x1F83D9AB, h := 0x5BE0CD19 }
  k := k
  sumA := fun a => a.rotateRight 2 ^^^ a.rotateRight 13 ^^^ a.rotateRight 22
  sumE := fun e => e.rotateRight 6 ^^^ e.rotateRight 11 ^^^ e.rotateRight 25
  extendFar := fun word => word.rotateRight 7 ^^^ word.rotateRight 18 ^^^ word >>> 3
  extendNear := fun word => word.rotateRight 17 ^^^ word.rotateRight 19 ^^^ word >>> 10
  overhead_ge := by decide
  overhead_le := by decide

end SHA256MessageDigest

namespace SHA512MessageDigest

def k : List (BitVec 64) :=
  [0x428a2f98d728ae22, 0x7137449123ef65cd, 0xb5c0fbcfec4d3b2f, 0xe9b5dba58189dbbc,
    0x3956c25bf348b538, 0x59f111f1b605d019, 0x923f82a4af194f9b, 0xab1c5ed5da6d8118,
    0xd807aa98a3030242, 0x12835b0145706fbe, 0x243185be4ee4b28c, 0x550c7dc3d5ffb4e2,
    0x72be5d74f27b896f, 0x80deb1fe3b1696b1, 0x9bdc06a725c71235, 0xc19bf174cf692694,
    0xe49b69c19ef14ad2, 0xefbe4786384f25e3, 0x0fc19dc68b8cd5b5, 0x240ca1cc77ac9c65,
    0x2de92c6f592b0275, 0x4a7484aa6ea6e483, 0x5cb0a9dcbd41fbd4, 0x76f988da831153b5,
    0x983e5152ee66dfab, 0xa831c66d2db43210, 0xb00327c898fb213f, 0xbf597fc7beef0ee4,
    0xc6e00bf33da88fc2, 0xd5a79147930aa725, 0x06ca6351e003826f, 0x142929670a0e6e70,
    0x27b70a8546d22ffc, 0x2e1b21385c26c926, 0x4d2c6dfc5ac42aed, 0x53380d139d95b3df,
    0x650a73548baf63de, 0x766a0abb3c77b2a8, 0x81c2c92e47edaee6, 0x92722c851482353b,
    0xa2bfe8a14cf10364, 0xa81a664bbc423001, 0xc24b8b70d0f89791, 0xc76c51a30654be30,
    0xd192e819d6ef5218, 0xd69906245565a910, 0xf40e35855771202a, 0x106aa07032bbd1b8,
    0x19a4c116b8d2d0c8, 0x1e376c085141ab53, 0x2748774cdf8eeb99, 0x34b0bcb5e19b48a8,
    0x391c0cb3c5c95a63, 0x4ed8aa4ae3418acb, 0x5b9cca4f7763e373, 0x682e6ff3d6b2b8a3,
    0x748f82ee5defb2fc, 0x78a5636f43172f60, 0x84c87814a1f0ab72, 0x8cc702081a6439ec,
    0x90befffa23631e28, 0xa4506cebde82bde9, 0xbef9a3f7b2c67915, 0xc67178f2e372532b,
    0xca273eceea26619c, 0xd186b8c721c0c207, 0xeada7dd6cde0eb1e, 0xf57d4f7fee6ed178,
    0x06f067aa72176fba, 0x0a637dc5a2c898a6, 0x113f9804bef90dae, 0x1b710b35131c471b,
    0x28db77f523047d84, 0x32caab7b40c72493, 0x3c9ebe0a15c9bebc, 0x431d67c49c100d4c,
    0x4cc5d4becb3e42b6, 0x597f299cfc657e2a, 0x5fcb6fab3ad6faec, 0x6c44198c4a475817]

def sha : Sha2 64 where
  blockLength := 128
  overhead := 17
  initial :=
    { a := 0x6a09e667f3bcc908, b := 0xbb67ae8584caa73b, c := 0x3c6ef372fe94f82b,
      d := 0xa54ff53a5f1d36f1, e := 0x510e527fade682d1, f := 0x9b05688c2b3e6c1f,
      g := 0x1f83d9abfb41bd6b, h := 0x5be0cd19137e2179 }
  k := k
  sumA := fun a => a.rotateRight 28 ^^^ a.rotateRight 34 ^^^ a.rotateRight 39
  sumE := fun e => e.rotateRight 14 ^^^ e.rotateRight 18 ^^^ e.rotateRight 41
  extendFar := fun word => word.rotateRight 1 ^^^ word.rotateRight 8 ^^^ word >>> 7
  extendNear := fun word => word.rotateRight 19 ^^^ word.rotateRight 61 ^^^ word >>> 6
  overhead_ge := by decide
  overhead_le := by decide

end SHA512MessageDigest

end Conclave.NoiseCrypto
