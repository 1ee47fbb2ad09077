import ConclaveFormal.Lib.Bytes

/-!
# The ChaCha20 core

`hash` is the ChaCha20 block function on sixteen 32-bit words, `initKey256` and
`initIV` lay a key and a packet counter out in its input, and `xorBlock` combines
one output block with up to 64 bytes.
-/

set_option autoImplicit false

namespace Conclave.NoiseCrypto

open Conclave.Lib

namespace ChaChaCore

abbrev Block := Vector UInt32 16

/-! ## The block function -/

def leftRotate16 (v : UInt32) : UInt32 := v <<< 16 ||| v >>> 16

def leftRotate12 (v : UInt32) : UInt32 := v <<< 12 ||| v >>> 20

def leftRotate8 (v : UInt32) : UInt32 := v <<< 8 ||| v >>> 24

def leftRotate7 (v : UInt32) : UInt32 := v <<< 7 ||| v >>> 25

def quarterRound (v : Block) (a b c d : Fin 16) : Block :=
  let v := v.set a (v[a] + v[b])
  let v := v.set d (leftRotate16 (v[d] ^^^ v[a]))
  let v := v.set c (v[c] + v[d])
  let v := v.set b (leftRotate12 (v[b] ^^^ v[c]))
  let v := v.set a (v[a] + v[b])
  let v := v.set d (leftRotate8 (v[d] ^^^ v[a]))
  let v := v.set c (v[c] + v[d])
  v.set b (leftRotate7 (v[b] ^^^ v[c]))

/-- A column round and a diagonal round. -/
def doubleRound (v : Block) : Block :=
  let v := quarterRound v 0 4 8 12
  let v := quarterRound v 1 5 9 13
  let v := quarterRound v 2 6 10 14
  let v := quarterRound v 3 7 11 15
  let v := quarterRound v 0 5 10 15
  let v := quarterRound v 1 6 11 12
  let v := quarterRound v 2 7 8 13
  quarterRound v 3 4 9 14

def hash (input : Block) : Block :=
  Vector.zipWith (fun output word => output + word) (Nat.repeat doubleRound 10 input) input

/-! ## The input block -/

def char4 (c1 c2 c3 c4 : Char) : UInt32 :=
  c1.val ||| c2.val <<< 8 ||| c3.val <<< 16 ||| c4.val <<< 24

def fromLittleEndian (key : Bytes) (offset : Nat) : UInt32 :=
  (key.getD offset 0).toUInt32 ||| (key.getD (offset + 1) 0).toUInt32 <<< 8 |||
    (key.getD (offset + 2) 0).toUInt32 <<< 16 ||| (key.getD (offset + 3) 0).toUInt32 <<< 24

def initKey256 (key : Bytes) : Block :=
  #v[char4 'e' 'x' 'p' 'a', char4 'n' 'd' ' ' '3', char4 '2' '-' 'b' 'y', char4 't' 'e' ' ' 'k',
    fromLittleEndian key 0, fromLittleEndian key 4, fromLittleEndian key 8,
    fromLittleEndian key 12, fromLittleEndian key 16, fromLittleEndian key 20,
    fromLittleEndian key 24, fromLittleEndian key 28, 0, 0, 0, 0]

def initIV (input : Block) (iv : Nat) : Block :=
  (((input.set 12 0).set 13 0).set 14 (UInt32.ofNat iv)).set 15 (UInt32.ofNat (iv / 2 ^ 32))

/-- The counter of the block, in the words 12 and 13. -/
def nextBlock (input : Block) : Block :=
  let input := input.set 12 (input[12] + 1)
  if input[12] = 0 then input.set 13 (input[13] + 1) else input

end ChaChaCore

/-! ## The key stream -/

def xorBlock : Bytes → List UInt32 → Bytes
  | b0 :: b1 :: b2 :: b3 :: rest, value :: block =>
      (b0 ^^^ value.toUInt8) :: (b1 ^^^ (value >>> 8).toUInt8) ::
        (b2 ^^^ (value >>> 16).toUInt8) :: (b3 ^^^ (value >>> 24).toUInt8) :: xorBlock rest block
  | [b0, b1, b2], value :: _ =>
      [b0 ^^^ value.toUInt8, b1 ^^^ (value >>> 8).toUInt8, b2 ^^^ (value >>> 16).toUInt8]
  | [b0, b1], value :: _ => [b0 ^^^ value.toUInt8, b1 ^^^ (value >>> 8).toUInt8]
  | [b0], value :: _ => [b0 ^^^ value.toUInt8]
  | _, _ => []

/-- The output is as long as the input, and the same key stream undoes it. -/
theorem xorBlock_spec (block : List UInt32) (input : Bytes)
    (enough : input.length ≤ 4 * block.length) :
    (xorBlock input block).length = input.length ∧
      xorBlock (xorBlock input block) block = input := by
  fun_induction xorBlock input block with
  | case1 b0 b1 b2 b3 rest value block ih =>
      simp only [List.length_cons] at enough ⊢
      obtain ⟨length, undone⟩ := ih (by omega)
      refine ⟨by rw [length], ?_⟩
      rw [xorBlock, undone]
      simp only [UInt8.xor_assoc, UInt8.xor_self, UInt8.xor_zero]
  | case2 => exact ⟨rfl, by simp only [xorBlock, UInt8.xor_assoc, UInt8.xor_self, UInt8.xor_zero]⟩
  | case3 => exact ⟨rfl, by simp only [xorBlock, UInt8.xor_assoc, UInt8.xor_self, UInt8.xor_zero]⟩
  | case4 => exact ⟨rfl, by simp only [xorBlock, UInt8.xor_assoc, UInt8.xor_self, UInt8.xor_zero]⟩
  | case5 input block wide three two one =>
      -- A block that reaches over the input leaves only the empty input here.
      match input, block with
      | [], _ => exact ⟨rfl, rfl⟩
      | _ :: _, [] => simp at enough
      | [_], _ :: _ => exact absurd rfl (one _ _ _ rfl)
      | [_, _], _ :: _ => exact absurd rfl (two _ _ _ _ rfl)
      | [_, _, _], _ :: _ => exact absurd rfl (three _ _ _ _ _ rfl)
      | _ :: _ :: _ :: _ :: _, _ :: _ => exact absurd rfl (wide _ _ _ _ _ _ _ rfl)

end Conclave.NoiseCrypto
