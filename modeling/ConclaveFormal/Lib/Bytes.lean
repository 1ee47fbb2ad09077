import Mathlib.Data.List.Basic
import Mathlib.Tactic.Ring
import Mathlib.Tactic.Linarith

/-!
# Byte strings and big-endian integers

Byte strings are lists of `UInt8`.  `bigEndian width value` is the low
`8 * width` bits of `value`, most significant byte first, and `ofBigEndian` reads
such a string back.  `wrap32` is the value a 32-bit signed register holds after
an exact integer result has been stored into it.
-/

set_option autoImplicit false

namespace Conclave.Lib

abbrev Bytes := List UInt8

/-! ## Big-endian encoding -/

def bigEndian : Nat → Nat → Bytes
  | 0, _ => []
  | width + 1, value => UInt8.ofNat (value / 256 ^ width) :: bigEndian width value

def ofBigEndian (bytes : Bytes) : Nat :=
  bytes.foldl (fun acc byte => acc * 256 + byte.toNat) 0

@[simp] theorem bigEndian_length (width value : Nat) :
    (bigEndian width value).length = width := by
  induction width with
  | zero => rfl
  | succ width ih => simp [bigEndian, ih]

private theorem ofBigEndian_foldl (bytes : Bytes) (start : Nat) :
    bytes.foldl (fun acc byte => acc * 256 + byte.toNat) start =
      start * 256 ^ bytes.length + ofBigEndian bytes := by
  unfold ofBigEndian
  induction bytes generalizing start with
  | nil => simp
  | cons byte rest ih =>
      simp only [List.foldl_cons, List.length_cons]
      rw [ih (start * 256 + byte.toNat), ih (0 * 256 + byte.toNat)]
      ring

theorem ofBigEndian_cons (byte : UInt8) (rest : Bytes) :
    ofBigEndian (byte :: rest) = byte.toNat * 256 ^ rest.length + ofBigEndian rest := by
  have folded := ofBigEndian_foldl rest (0 * 256 + byte.toNat)
  simpa [ofBigEndian] using folded

theorem ofBigEndian_lt (bytes : Bytes) : ofBigEndian bytes < 256 ^ bytes.length := by
  induction bytes with
  | nil => simp [ofBigEndian]
  | cons byte rest ih =>
      rw [ofBigEndian_cons, List.length_cons, pow_succ]
      have byteBound := byte.toNat_lt
      nlinarith [byteBound, ih]

/-- Reading back an encoding gives the value modulo the width written. -/
theorem ofBigEndian_bigEndian (width value : Nat) :
    ofBigEndian (bigEndian width value) = value % 256 ^ width := by
  induction width with
  | zero => simp [bigEndian, ofBigEndian, Nat.mod_one]
  | succ width ih =>
      rw [bigEndian, ofBigEndian_cons, ih, bigEndian_length]
      have top : (UInt8.ofNat (value / 256 ^ width)).toNat =
          value / 256 ^ width % 256 := by
        simp
      rw [top, pow_succ, Nat.mod_mul]
      ring

theorem ofBigEndian_bigEndian_of_lt (width value : Nat) (fits : value < 256 ^ width) :
    ofBigEndian (bigEndian width value) = value := by
  rw [ofBigEndian_bigEndian, Nat.mod_eq_of_lt fits]

/-! ## Bits of big-endian integers -/

theorem and_add_two_pow {high high' low low' width : Nat} (fits : low < 2 ^ width)
    (fits' : low' < 2 ^ width) :
    (high * 2 ^ width + low) &&& (high' * 2 ^ width + low') =
      (high &&& high') * 2 ^ width + (low &&& low') := by
  have narrow : low &&& low' < 2 ^ width := Nat.and_lt_two_pow low fits'
  apply Nat.eq_of_testBit_eq
  intro bit
  rw [Nat.testBit_and, Nat.mul_comm high, Nat.mul_comm high', Nat.mul_comm (high &&& high'),
    Nat.testBit_two_pow_mul_add _ fits, Nat.testBit_two_pow_mul_add _ fits',
    Nat.testBit_two_pow_mul_add _ narrow]
  by_cases inside : bit < width
  · rw [if_pos inside, if_pos inside, if_pos inside, Nat.testBit_and]
  · rw [if_neg inside, if_neg inside, if_neg inside, Nat.testBit_and]

theorem byte_and_eq_iff {first second third : UInt8} :
    first.toNat &&& second.toNat = third.toNat ↔ first &&& second = third := by
  rw [← UInt8.toNat_and, UInt8.toNat_inj]

/-- Integers agree under a mask if their bytes do. -/
theorem ofBigEndian_and_eq_iff {first second third : Bytes} (sized : second.length = first.length)
    (sized' : third.length = first.length) :
    ofBigEndian first &&& ofBigEndian second = ofBigEndian third ↔
      List.zipWith (fun byte mask => byte &&& mask) first second = third := by
  induction first generalizing second third with
  | nil =>
      obtain rfl := List.length_eq_zero_iff.mp sized
      obtain rfl := List.length_eq_zero_iff.mp sized'
      exact iff_of_true rfl rfl
  | cons byte rest ih =>
      obtain ⟨byte', rest', rfl⟩ := List.exists_of_length_succ second sized
      obtain ⟨byte'', rest'', rfl⟩ := List.exists_of_length_succ third sized'
      have length := Nat.succ.inj sized
      have length' := Nat.succ.inj sized'
      have width : (256 : Nat) ^ rest.length = 2 ^ (8 * rest.length) := by
        rw [Nat.pow_mul]
      have low := ofBigEndian_lt rest
      have low' := ofBigEndian_lt rest'
      have low'' := ofBigEndian_lt rest''
      rw [length] at low'
      rw [length'] at low''
      rw [width] at low low' low''
      have narrow := Nat.and_lt_two_pow (ofBigEndian rest) low'
      rw [ofBigEndian_cons, ofBigEndian_cons, ofBigEndian_cons, length, length', width,
        and_add_two_pow low low', List.zipWith_cons_cons, List.cons.injEq, ← ih length length',
        ← byte_and_eq_iff]
      constructor
      · intro same
        have high : byte.toNat &&& byte'.toNat = byte''.toNat := by
          have divided := congrArg (fun value => value / 2 ^ (8 * rest.length)) same
          simpa [Nat.mul_comm _ (2 ^ (8 * rest.length)), Nat.mul_add_div, Nat.div_eq_of_lt narrow,
            Nat.div_eq_of_lt low''] using divided
        rw [high] at same
        exact ⟨high, Nat.add_left_cancel same⟩
      · rintro ⟨high, same⟩
        rw [high, same]

/-! ## Signed 32-bit registers -/

def wrap32 (value : Int) : Int := Int.bmod value (2 ^ 32)

theorem wrap32_of_range {value : Int} (low : -2 ^ 31 ≤ value) (high : value < 2 ^ 31) :
    wrap32 value = value := by
  unfold wrap32
  rw [Int.bmod_def]
  split <;> omega

theorem wrap32_range (value : Int) : -2 ^ 31 ≤ wrap32 value ∧ wrap32 value < 2 ^ 31 := by
  unfold wrap32
  rw [Int.bmod_def]
  split <;> omega

@[simp] theorem wrap32_wrap32 (value : Int) : wrap32 (wrap32 value) = wrap32 value := by
  simp [wrap32]

theorem wrap32_wrap32_add (left right : Int) :
    wrap32 (wrap32 left + right) = wrap32 (left + right) := by
  simp [wrap32]

theorem wrap32_wrap32_mul_add (left factor right : Int) :
    wrap32 (wrap32 left * factor + right) = wrap32 (left * factor + right) := by
  have product : wrap32 (wrap32 left * factor) = wrap32 (left * factor) := by
    simp [wrap32]
  rw [← wrap32_wrap32_add, product, wrap32_wrap32_add]

theorem wrap32_eq_zero_iff {value : Int} : wrap32 value = 0 ↔ (2 : Int) ^ 32 ∣ value :=
  Int.dvd_iff_bmod_eq_zero.symm

end Conclave.Lib
