import ConclaveFormal.Lib.Struct

/-!
# Little-endian integers

`littleEndian width value` is the low `8 * width` bits of `value`, least
significant byte first, and `ofLittleEndian` reads such a string back.
-/

set_option autoImplicit false

namespace Conclave.Lib

def littleEndian : Nat → Nat → Bytes
  | 0, _ => []
  | width + 1, value => UInt8.ofNat value :: littleEndian width (value / 256)

@[simp] theorem littleEndian_length (width value : Nat) :
    (littleEndian width value).length = width := by
  induction width generalizing value with
  | zero => rfl
  | succ width ih => simp [littleEndian, ih]

@[simp] theorem ofLittleEndian_nil : ofLittleEndian [] = 0 := rfl

theorem ofBigEndian_append_single (bytes : Bytes) (byte : UInt8) :
    ofBigEndian (bytes ++ [byte]) = ofBigEndian bytes * 256 + byte.toNat := by
  simp [ofBigEndian]

@[simp] theorem ofLittleEndian_cons (byte : UInt8) (bytes : Bytes) :
    ofLittleEndian (byte :: bytes) = byte.toNat + 256 * ofLittleEndian bytes := by
  rw [ofLittleEndian, List.reverse_cons, ofBigEndian_append_single, ofLittleEndian]
  ring

theorem ofLittleEndian_append (first second : Bytes) :
    ofLittleEndian (first ++ second) =
      ofLittleEndian first + 256 ^ first.length * ofLittleEndian second := by
  induction first with
  | nil => simp
  | cons byte bytes ih =>
      rw [List.cons_append, ofLittleEndian_cons, ih, ofLittleEndian_cons, List.length_cons,
        pow_succ]
      ring

theorem ofLittleEndian_replicate_zero (count : Nat) :
    ofLittleEndian (List.replicate count 0) = 0 := by
  induction count with
  | zero => rfl
  | succ count ih => rw [List.replicate_succ, ofLittleEndian_cons, ih]; rfl

theorem ofLittleEndian_lt (bytes : Bytes) : ofLittleEndian bytes < 256 ^ bytes.length := by
  have bound := ofBigEndian_lt bytes.reverse
  rwa [List.length_reverse] at bound

theorem ofLittleEndian_littleEndian (width value : Nat) :
    ofLittleEndian (littleEndian width value) = value % 256 ^ width := by
  induction width generalizing value with
  | zero => simp [littleEndian, Nat.mod_one]
  | succ width ih =>
      have split : value % 256 ^ (width + 1) = value % 256 + 256 * (value / 256 % 256 ^ width) := by
        rw [pow_succ', Nat.mod_mul]
      rw [littleEndian, ofLittleEndian_cons, ih, UInt8.toNat_ofNat', split]

/-- A string is determined by its length and its value. -/
theorem littleEndian_ofLittleEndian (bytes : Bytes) :
    littleEndian bytes.length (ofLittleEndian bytes) = bytes := by
  induction bytes with
  | nil => rfl
  | cons byte bytes ih =>
      have small := byte.toNat_lt
      have head : UInt8.ofNat (byte.toNat + 256 * ofLittleEndian bytes) = byte := by
        apply UInt8.toNat_inj.mp
        rw [UInt8.toNat_ofNat']
        omega
      have tail : (byte.toNat + 256 * ofLittleEndian bytes) / 256 = ofLittleEndian bytes := by
        omega
      rw [ofLittleEndian_cons, List.length_cons, littleEndian, head, tail, ih]

theorem ofLittleEndian_inj {first second : Bytes} (length : first.length = second.length)
    (same : ofLittleEndian first = ofLittleEndian second) : first = second := by
  rw [← littleEndian_ofLittleEndian first, ← littleEndian_ofLittleEndian second, length, same]

/-- Only the bits that fit are written. -/
theorem littleEndian_congr {width first second : Nat}
    (same : first % 256 ^ width = second % 256 ^ width) :
    littleEndian width first = littleEndian width second := by
  apply ofLittleEndian_inj
  · rw [littleEndian_length, littleEndian_length]
  · rw [ofLittleEndian_littleEndian, ofLittleEndian_littleEndian, same]

/-- Bits shifted over a value that is narrow enough are added to it. -/
theorem or_shiftLeft {low width : Nat} (narrow : low < 2 ^ width) (high : Nat) :
    low ||| high <<< width = low + high * 2 ^ width := by
  rw [Nat.or_comm, ← Nat.shiftLeft_add_eq_or_of_lt narrow, Nat.shiftLeft_eq, Nat.add_comm]

end Conclave.Lib
