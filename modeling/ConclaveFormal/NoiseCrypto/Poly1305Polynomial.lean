import Mathlib.Data.Int.ModEq
import ConclaveFormal.Lib.BlockStream
import ConclaveFormal.NoiseCrypto.Poly1305

/-!
# Poly1305 evaluates its polynomial

`mac` is the authenticator without limbs: the blocks of the message, each with a
bit above its last byte, are the coefficients of a polynomial that is evaluated
at the clamped half of the key modulo 2^130 - 5.
-/

set_option autoImplicit false

namespace Conclave.NoiseCrypto.Poly1305

open Conclave.Lib

/-! ## The authenticator on numbers -/

def prime : Nat := 2 ^ 130 - 5

def clampMask : Bytes :=
  [0xFF, 0xFF, 0xFF, 0x0F, 0xFC, 0xFF, 0xFF, 0x0F, 0xFC, 0xFF, 0xFF, 0x0F, 0xFC, 0xFF, 0xFF, 0x0F]

def clamp (key : Bytes) : Bytes := List.zipWith (fun byte mask => byte &&& mask) key clampMask

/-- The bytes of a block with a bit above them. -/
def blockValue (block : Bytes) : Nat := ofLittleEndian (block ++ [1])

def absorb (r acc : Nat) (block : Bytes) : Nat := (acc + blockValue block) * r % prime

def polynomial (r : Nat) (data : Bytes) : Nat := overBlocks 16 (absorb r) 0 data

def mac (key data : Bytes) : Bytes :=
  littleEndian 16
    (polynomial (ofLittleEndian (clamp key)) data + ofLittleEndian ((key.drop 16).take 16))

/-! ## Packing and unpacking -/

theorem or_three {a b c i j : Nat} (first : a < 2 ^ i) (second : a + b * 2 ^ i < 2 ^ j) :
    a ||| b <<< i ||| c <<< j = a + b * 2 ^ i + c * 2 ^ j := by
  rw [or_shiftLeft first, or_shiftLeft second]

theorem or_four {a b c d i j k : Nat} (first : a < 2 ^ i) (second : a + b * 2 ^ i < 2 ^ j)
    (third : a + b * 2 ^ i + c * 2 ^ j < 2 ^ k) :
    a ||| b <<< i ||| c <<< j ||| d <<< k = a + b * 2 ^ i + c * 2 ^ j + d * 2 ^ k := by
  rw [or_three first second, or_shiftLeft third]

theorem and_low (value : Nat) :
    value &&& 0x03 = value % 4 ∧ value &&& 0x0F = value % 16 ∧ value &&& 0x3F = value % 64 :=
  ⟨Nat.and_two_pow_sub_one_eq_mod value 2, Nat.and_two_pow_sub_one_eq_mod value 4,
    Nat.and_two_pow_sub_one_eq_mod value 6⟩

theorem and_high {value : Nat} (byte : value < 256) :
    (value &&& 0xFC) >>> 2 = value / 4 ∧ (value &&& 0xF0) >>> 4 = value / 16 ∧
      (value &&& 0xC0) >>> 6 = value / 64 := by
  have six : (value &&& 0xFC) >>> 2 = value >>> 2 &&& 2 ^ 6 - 1 := Nat.shiftRight_and_distrib
  have four : (value &&& 0xF0) >>> 4 = value >>> 4 &&& 2 ^ 4 - 1 := Nat.shiftRight_and_distrib
  have two : (value &&& 0xC0) >>> 6 = value >>> 6 &&& 2 ^ 2 - 1 := Nat.shiftRight_and_distrib
  rw [six, four, two, Nat.and_two_pow_sub_one_eq_mod, Nat.and_two_pow_sub_one_eq_mod,
    Nat.and_two_pow_sub_one_eq_mod]
  simp only [Nat.shiftRight_eq_div_pow]
  omega

theorem exists_bytes {chunk : Bytes} (length : chunk.length = 16) :
    ∃ b0 b1 b2 b3 b4 b5 b6 b7 b8 b9 b10 b11 b12 b13 b14 b15, chunk =
      [b0, b1, b2, b3, b4, b5, b6, b7, b8, b9, b10, b11, b12, b13, b14, b15] := by
  match chunk, length with
  | [_, _, _, _, _, _, _, _, _, _, _, _, _, _, _, _], _ =>
      exact ⟨_, _, _, _, _, _, _, _, _, _, _, _, _, _, _, _, rfl⟩

/-- The limbs of a chunk are its bits from 0, 26, 52, 78 and 104 on. -/
theorem unpack_eq {chunk : Bytes} (length : chunk.length = 16) (finalChunk : Bool) :
    ∃ l0 l1 l2 l3 l4, unpack chunk finalChunk = [l0, l1, l2, l3, l4] ∧
      l0 < 2 ^ 26 ∧ l1 < 2 ^ 26 ∧ l2 < 2 ^ 26 ∧ l3 < 2 ^ 26 ∧ l4 < 2 ^ 25 ∧
      l0 + 2 ^ 26 * l1 + 2 ^ 52 * l2 + 2 ^ 78 * l3 + 2 ^ 104 * l4 =
        ofLittleEndian chunk + (if finalChunk then 0 else 2 ^ 128) := by
  obtain ⟨b0, b1, b2, b3, b4, b5, b6, b7, b8, b9, b10, b11, b12, b13, b14, b15, rfl⟩ :=
    exists_bytes length
  have n0 := b0.toNat_lt
  have n1 := b1.toNat_lt
  have n2 := b2.toNat_lt
  have n3 := b3.toNat_lt
  have n4 := b4.toNat_lt
  have n5 := b5.toNat_lt
  have n6 := b6.toNat_lt
  have n7 := b7.toNat_lt
  have n8 := b8.toNat_lt
  have n9 := b9.toNat_lt
  have n10 := b10.toNat_lt
  have n11 := b11.toNat_lt
  have n12 := b12.toNat_lt
  have n13 := b13.toNat_lt
  have n14 := b14.toNat_lt
  have n15 := b15.toNat_lt
  refine ⟨b0.toNat + b1.toNat * 2 ^ 8 + b2.toNat * 2 ^ 16 + b3.toNat % 4 * 2 ^ 24,
    b3.toNat / 4 + b4.toNat * 2 ^ 6 + b5.toNat * 2 ^ 14 + b6.toNat % 16 * 2 ^ 22,
    b6.toNat / 16 + b7.toNat * 2 ^ 4 + b8.toNat * 2 ^ 12 + b9.toNat % 64 * 2 ^ 20,
    b9.toNat / 64 + b10.toNat * 2 ^ 2 + b11.toNat * 2 ^ 10 + b12.toNat * 2 ^ 18,
    b13.toNat + b14.toNat * 2 ^ 8 + b15.toNat * 2 ^ 16 + (if finalChunk then 0 else 1) * 2 ^ 24,
    ?_, by omega, by omega, by omega, by omega, by split <;> omega, ?_⟩
  · simp only [unpack, byteAt, List.getD_cons_zero, List.getD_cons_succ, (and_low _).1,
      (and_low _).2.1, (and_low _).2.2, (and_high n3).1, (and_high n6).2.1, (and_high n9).2.2]
    rw [or_four (by omega) (by omega) (by omega), or_four (by omega) (by omega) (by omega),
      or_four (by omega) (by omega) (by omega), or_four (by omega) (by omega) (by omega),
      or_four (by omega) (by omega) (by omega)]
  · simp only [ofLittleEndian_cons, ofLittleEndian_nil]
    cases finalChunk <;> simp only [if_true, if_false, Bool.false_eq_true] <;> omega

theorem and_byte (byte : UInt8) : byte.toNat &&& 0xFF = byte.toNat := by
  have masked := Nat.and_two_pow_sub_one_eq_mod byte.toNat 8
  rw [Nat.mod_eq_of_lt byte.toNat_lt] at masked
  exact masked

/-- The masks of the key limbs are the mask of the clamped key and those of a chunk. -/
theorem unpackKey_eq {key : Bytes} (length : 16 ≤ key.length) :
    unpackKey key = unpack (clamp key) true := by
  have whole : key.take 16 ++ key.drop 16 = key := List.take_append_drop 16 key
  obtain ⟨b0, b1, b2, b3, b4, b5, b6, b7, b8, b9, b10, b11, b12, b13, b14, b15, first⟩ :=
    exists_bytes (show (key.take 16).length = 16 by rw [List.length_take]; omega)
  rw [first] at whole
  rw [← whole]
  simp only [unpackKey, unpack, clamp, clampMask, byteAt, List.cons_append, List.zipWith_cons_cons,
    List.getD_cons_zero, List.getD_cons_succ, UInt8.toNat_and, Nat.and_assoc, UInt8.reduceToNat,
    Nat.reduceAnd, and_byte, if_true, Nat.zero_shiftLeft, Nat.or_zero]

theorem clamp_length {key : Bytes} (length : 16 ≤ key.length) : (clamp key).length = 16 := by
  rw [clamp, List.length_zipWith, clampMask]
  simp only [List.length_cons, List.length_nil]
  omega

theorem clamp_lt {key : Bytes} (length : 16 ≤ key.length) :
    ofLittleEndian (clamp key) < 2 ^ 124 := by
  have split : clamp key = (clamp key).take 15 ++ (clamp key).drop 15 :=
    (List.take_append_drop 15 _).symm
  have last : (clamp key).drop 15 = [key.getD 15 0 &&& 0x0F] := by
    apply List.ext_getElem
    · rw [List.length_drop, clamp_length length]
      rfl
    · intro index inside inside'
      have first : index = 0 := by simpa using inside'
      subst first
      simp [clamp, clampMask, List.getD_eq_getElem?_getD, List.getElem?_eq_getElem
        (show 15 < key.length by omega)]
  have low := ofLittleEndian_lt ((clamp key).take 15)
  have masked : (key.getD 15 0 &&& 0x0F).toNat < 16 := by
    have bound := Nat.and_two_pow_sub_one_eq_mod (key.getD 15 0).toNat 4
    rw [UInt8.toNat_and]
    change (key.getD 15 0).toNat &&& 15 < 16
    change (key.getD 15 0).toNat &&& 15 = _ at bound
    omega
  have front : ((clamp key).take 15).length = 15 := by
    rw [List.length_take, clamp_length length]
    rfl
  rw [split, last, ofLittleEndian_append, ofLittleEndian_cons, ofLittleEndian_nil, front]
  rw [front] at low
  omega

/-! ## One chunk -/

theorem exists_five {limbs : List Int} (length : limbs.length = 5) :
    ∃ l0 l1 l2 l3 l4, limbs = [l0, l1, l2, l3, l4] := by
  match limbs, length with
  | [_, _, _, _, _], _ => exact ⟨_, _, _, _, _, rfl⟩

/-- Between two chunks the accumulator is below 2^131 and only its last limb is
not a digit. -/
structure Reduced (h : List Int) : Prop where
  length : h.length = 5
  nonneg : ∀ limb ∈ h, 0 ≤ limb
  digits : ∀ limb ∈ h.dropLast, limb < radix
  top : Limbs.value radix h < 2 ^ 131

theorem Reduced.bounds {h : List Int} (reduced : Reduced h) :
    ∀ limb ∈ h, 0 ≤ limb ∧ limb ≤ 2 ^ 27 := by
  obtain ⟨h0, h1, h2, h3, h4, rfl⟩ := exists_five reduced.length
  have nonneg := reduced.nonneg
  have digits := reduced.digits
  have top := reduced.top
  simp only [List.dropLast, List.mem_cons, List.not_mem_nil, or_false, forall_eq_or_imp,
    forall_eq, Limbs.value_cons, Limbs.value_nil, radix] at nonneg digits top ⊢
  omega

/-- What the key limbs and the limbs of a chunk have in common. -/
structure Digits (limbs : List Int) : Prop where
  length : limbs.length = 5
  digits : ∀ limb ∈ limbs, 0 ≤ limb ∧ limb ≤ 2 ^ 26

theorem unpack_spec {chunk : Bytes} (length : chunk.length = 16) (finalChunk : Bool) :
    Digits ((unpack chunk finalChunk).map Int.ofNat) ∧
      Limbs.value radix ((unpack chunk finalChunk).map Int.ofNat) =
        (ofLittleEndian chunk + (if finalChunk then 0 else 2 ^ 128) : Nat) := by
  obtain ⟨l0, l1, l2, l3, l4, limbs, low0, low1, low2, low3, low4, total⟩ :=
    unpack_eq length finalChunk
  rw [limbs, ← total]
  refine ⟨⟨rfl, ?_⟩, ?_⟩
  · simp only [List.map_cons, List.map_nil, List.mem_cons, List.not_mem_nil, or_false,
      forall_eq_or_imp, forall_eq, Int.ofNat_eq_natCast]
    omega
  · simp only [List.map_cons, List.map_nil, Limbs.value_cons, Limbs.value_nil, radix,
      Int.ofNat_eq_natCast]
    push_cast
    ring

theorem radix_pos : 0 < radix := by decide

/-- The ten limbs of the product, as its low and its high 130 bits. -/
theorem product_spec {r sum : List Int} (key : Digits r) (length : sum.length = 5)
    (bounds : ∀ limb ∈ sum, 0 ≤ limb ∧ limb ≤ 2 ^ 27 + 2 ^ 26)
    (top : Limbs.value radix sum * Limbs.value radix r < 2 ^ 256) :
    let t := Limbs.carryAll radix wrap64 0 (Limbs.multiply wrap64 sum r ++ [0])
    Digits (t.take 5) ∧ Digits (t.drop 5) ∧
      Limbs.value radix (t.take 5) < 2 ^ 130 ∧ Limbs.value radix (t.drop 5) < 2 ^ 126 ∧
      Limbs.value radix (t.take 5) + 2 ^ 130 * Limbs.value radix (t.drop 5) =
        Limbs.value radix sum * Limbs.value radix r := by
  intro t
  obtain ⟨productValue, productLength, columns⟩ := @Limbs.multiply_spec radix wrap64
    (2 ^ 28 * 2 ^ 26) sum r
    (fun sum low high => wrap64_of_range low (by rw [length] at high; omega))
    (by norm_num) (by
      rw [← List.length_pos_iff, key.length]
      decide)
    (by
      intro limb member limb' member'
      obtain ⟨low, high⟩ := bounds limb member
      obtain ⟨low', high'⟩ := key.digits limb' member'
      exact ⟨mul_nonneg low low', mul_le_mul (by omega) high' low' (by norm_num)⟩)
  rw [length] at columns
  obtain ⟨value, nonneg, digits⟩ := @Limbs.carryAll_spec radix wrap64
    (5 * 2 ^ 54 + 1) (2 ^ 40) radix_pos (fun sum low high => wrap64_of_range low (by omega))
    (by decide) 0 (Limbs.multiply wrap64 sum r ++ [0]) (by decide) (by decide) (by
      intro limb member
      rcases List.mem_append.mp member with member | member
      · have column := columns limb member
        push_cast at column
        omega
      · rw [List.mem_singleton.mp member]
        omega) (by simp)
  rw [Limbs.value_append, productValue] at value
  have ten : t.length = 10 := by
    rw [Limbs.carryAll_length, List.length_append, productLength, length, key.length]
    rfl
  have split : t.take 5 ++ t.drop 5 = t := List.take_append_drop 5 t
  obtain ⟨l0, l1, l2, l3, l4, low⟩ := exists_five
    (show (t.take 5).length = 5 by rw [List.length_take, ten]; rfl)
  obtain ⟨l5, l6, l7, l8, l9, high⟩ := exists_five
    (show (t.drop 5).length = 5 by rw [List.length_drop, ten])
  change Limbs.value radix t = _ at value
  change ∀ limb ∈ t, 0 ≤ limb at nonneg
  change ∀ limb ∈ t.dropLast, limb < radix at digits
  rw [← split, low, high] at value nonneg digits
  rw [low, high]
  simp only [List.cons_append, List.nil_append, List.dropLast, List.mem_cons, List.not_mem_nil,
    or_false, forall_eq_or_imp, forall_eq, Limbs.value_cons, Limbs.value_nil] at value nonneg digits
  have total : l0 + 2 ^ 26 * l1 + 2 ^ 52 * l2 + 2 ^ 78 * l3 + 2 ^ 104 * l4 + 2 ^ 130 *
      (l5 + 2 ^ 26 * l6 + 2 ^ 52 * l7 + 2 ^ 78 * l8 + 2 ^ 104 * l9) =
        Limbs.value radix sum * Limbs.value radix r := by
    rw [show radix = 2 ^ 26 from rfl] at value ⊢
    linear_combination value
  rw [← total] at top
  rw [show radix = 2 ^ 26 from rfl] at digits
  refine ⟨⟨rfl, ?_⟩, ⟨rfl, ?_⟩, ?_, ?_, ?_⟩
  · simp only [List.mem_cons, List.not_mem_nil, or_false, forall_eq_or_imp, forall_eq]
    omega
  · simp only [List.mem_cons, List.not_mem_nil, or_false, forall_eq_or_imp, forall_eq]
    omega
  · simp only [Limbs.value_cons, Limbs.value_nil, radix]
    omega
  · simp only [Limbs.value_cons, Limbs.value_nil, radix]
    omega
  · rw [← total]
    simp only [Limbs.value_cons, Limbs.value_nil, radix]
    ring

theorem step_spec {r h c : List Int} (key : Digits r) (keyTop : Limbs.value radix r < 2 ^ 124)
    (reduced : Reduced h) (chunk : Digits c) (chunkTop : Limbs.value radix c < 2 ^ 129) :
    Reduced (step r h c) ∧
      (prime : Int) ∣ (Limbs.value radix h + Limbs.value radix c) * Limbs.value radix r -
        Limbs.value radix (step r h c) := by
  obtain ⟨sumValue, sumBounds⟩ := @Limbs.add_spec radix wrap32 _ _
    (fun sum low high => wrap32_of_range (by omega) (by omega)) _ _
    (reduced.length.trans chunk.length.symm) reduced.bounds chunk.digits
  have sumLength : (Limbs.add wrap32 h c).length = 5 := by
    rw [Limbs.add_length, reduced.length, chunk.length]
    rfl
  have keyLow := Limbs.value_nonneg radix_pos fun limb member => (key.digits limb member).1
  have chunkLow := Limbs.value_nonneg radix_pos fun limb member => (chunk.digits limb member).1
  have low := Limbs.value_nonneg radix_pos reduced.nonneg
  have top := reduced.top
  have productTop : Limbs.value radix (Limbs.add wrap32 h c) * Limbs.value radix r < 2 ^ 256 := by
    rw [sumValue]
    calc (Limbs.value radix h + Limbs.value radix c) * Limbs.value radix r
        ≤ 2 ^ 132 * Limbs.value radix r := mul_le_mul_of_nonneg_right (by omega) keyLow
      _ < 2 ^ 256 := by omega
  obtain ⟨lowLimbs, highLimbs, lowTop, highTop, total⟩ :=
    product_spec key sumLength sumBounds productTop
  rw [sumValue] at total
  rw [step]
  generalize Limbs.carryAll radix wrap64 0 (Limbs.multiply wrap64 (Limbs.add wrap32 h c) r ++ [0])
    = t at lowLimbs highLimbs lowTop highTop total ⊢
  have cast : (t.drop 5).map wrap32 = t.drop 5 := by
    refine (List.map_congr_left fun limb member => ?_).trans (List.map_id _)
    obtain ⟨limbLow, limbHigh⟩ := highLimbs.digits limb member
    exact wrap32_of_range (by omega) (by omega)
  have exactScaled : ∀ limb ∈ t.drop 5, wrap32 (5 * limb) = 5 * limb := by
    intro limb member
    obtain ⟨limbLow, limbHigh⟩ := highLimbs.digits limb member
    exact wrap32_of_range (by omega) (by omega)
  have scaledBounds : ∀ limb ∈ Limbs.scale wrap32 5 (t.drop 5), 0 ≤ limb ∧ limb ≤ 5 * 2 ^ 26 := by
    intro limb member
    obtain ⟨limb', there, rfl⟩ := List.mem_map.mp member
    obtain ⟨limbLow, limbHigh⟩ := highLimbs.digits limb' there
    rw [exactScaled limb' there]
    omega
  have scaledLength : (t.take 5).length = (Limbs.scale wrap32 5 (t.drop 5)).length := by
    rw [Limbs.scale_length, lowLimbs.length, highLimbs.length]
  obtain ⟨foldValue, foldBounds⟩ := @Limbs.add_spec radix wrap32 _ _
    (fun sum low high => wrap32_of_range (by omega) (by omega)) _ _ scaledLength lowLimbs.digits
    scaledBounds
  have foldLength : (Limbs.add wrap32 (t.take 5) (Limbs.scale wrap32 5 (t.drop 5))).length = 5 := by
    rw [Limbs.add_length, ← scaledLength, lowLimbs.length]
    rfl
  obtain ⟨value, nonneg, digits⟩ := @Limbs.carryAll_spec radix wrap32 (2 ^ 29) (2 ^ 5)
    radix_pos (fun sum low high => wrap32_of_range (by omega) (by omega)) (by decide) 0 _
    (by decide) (by decide)
    (fun limb member => by
      obtain ⟨limbLow, limbHigh⟩ := foldBounds limb member
      omega)
    (by
      rw [← List.length_pos_iff, foldLength]
      decide)
  rw [foldValue, Limbs.scale_spec exactScaled, zero_add] at value
  rw [cast]
  refine ⟨⟨by rw [Limbs.carryAll_length, foldLength], nonneg, digits, ?_⟩, ?_⟩
  · rw [value]
    omega
  · refine ⟨Limbs.value radix (t.drop 5), ?_⟩
    rw [value, ← total, prime]
    push_cast
    ring

/-! ## The final reduction -/

theorem pack_spec {l0 l1 l2 l3 l4 : Nat} (low0 : l0 < 2 ^ 26) (low1 : l1 < 2 ^ 26)
    (low2 : l2 < 2 ^ 26) (low3 : l3 < 2 ^ 26) :
    pack [l0, l1, l2, l3, l4] =
      littleEndian 16 (l0 + 2 ^ 26 * l1 + 2 ^ 52 * l2 + 2 ^ 78 * l3 + 2 ^ 104 * l4) := by
  apply ofLittleEndian_inj
  · rfl
  have byte3 : l0 / 2 ^ 24 ||| l1 <<< 2 = l0 / 2 ^ 24 + l1 * 2 ^ 2 := or_shiftLeft (by omega) l1
  have byte6 : l1 / 2 ^ 22 ||| l2 <<< 4 = l1 / 2 ^ 22 + l2 * 2 ^ 4 := or_shiftLeft (by omega) l2
  have byte9 : l2 / 2 ^ 20 ||| l3 <<< 6 = l2 / 2 ^ 20 + l3 * 2 ^ 6 := or_shiftLeft (by omega) l3
  rw [ofLittleEndian_littleEndian]
  simp only [pack, List.map_cons, List.map_nil, List.getD_cons_zero, List.getD_cons_succ,
    Nat.shiftRight_eq_div_pow, byte3, byte6, byte9, ofLittleEndian_cons, ofLittleEndian_nil,
    UInt8.toNat_ofNat']
  -- The bytes of one limb after the other, up to the bits it shares with the next.
  have first : l0 % 2 ^ 8 + 2 ^ 8 * (l0 / 2 ^ 8 % 2 ^ 8) + 2 ^ 16 * (l0 / 2 ^ 16 % 2 ^ 8) +
      2 ^ 24 * ((l0 / 2 ^ 24 + l1 * 2 ^ 2) % 2 ^ 8) = l0 + 2 ^ 26 * (l1 % 2 ^ 6) := by omega
  have second : l1 % 2 ^ 6 + 2 ^ 6 * (l1 / 2 ^ 6 % 2 ^ 8) + 2 ^ 14 * (l1 / 2 ^ 14 % 2 ^ 8) +
      2 ^ 22 * ((l1 / 2 ^ 22 + l2 * 2 ^ 4) % 2 ^ 8) = l1 + 2 ^ 26 * (l2 % 2 ^ 4) := by omega
  have third : l2 % 2 ^ 4 + 2 ^ 4 * (l2 / 2 ^ 4 % 2 ^ 8) + 2 ^ 12 * (l2 / 2 ^ 12 % 2 ^ 8) +
      2 ^ 20 * ((l2 / 2 ^ 20 + l3 * 2 ^ 6) % 2 ^ 8) = l2 + 2 ^ 26 * (l3 % 2 ^ 2) := by omega
  have fourth : l3 % 2 ^ 2 + 2 ^ 2 * (l3 / 2 ^ 2 % 2 ^ 8) + 2 ^ 10 * (l3 / 2 ^ 10 % 2 ^ 8) +
      2 ^ 18 * (l3 / 2 ^ 18 % 2 ^ 8) = l3 := by omega
  have fifth : l4 % 2 ^ 8 + 2 ^ 8 * (l4 / 2 ^ 8 % 2 ^ 8) + 2 ^ 16 * (l4 / 2 ^ 16 % 2 ^ 8) =
      l4 % 2 ^ 24 := by omega
  have cut : (l0 + 2 ^ 26 * l1 + 2 ^ 52 * l2 + 2 ^ 78 * l3 + 2 ^ 104 * l4) % 256 ^ 16 =
      l0 + 2 ^ 26 * l1 + 2 ^ 52 * l2 + 2 ^ 78 * l3 + 2 ^ 104 * (l4 % 2 ^ 24) := by omega
  rw [cut]
  linarith

theorem prime_eq : prime = 2 ^ 130 - 5 := rfl

/-- `c` is `g` with 5 added, which reaches 2^130 exactly if there is something to
subtract. -/
theorem select_spec {g0 g1 g2 g3 g4 c0 c1 c2 c3 c4 total : Nat} (low0 : g0 < 2 ^ 26)
    (low1 : g1 < 2 ^ 26) (low2 : g2 < 2 ^ 26) (low3 : g3 < 2 ^ 26) (low0' : c0 < 2 ^ 26)
    (low1' : c1 < 2 ^ 26) (low2' : c2 < 2 ^ 26) (low3' : c3 < 2 ^ 26)
    (value : g0 + 2 ^ 26 * g1 + 2 ^ 52 * g2 + 2 ^ 78 * g3 + 2 ^ 104 * g4 = total)
    (value' : c0 + 2 ^ 26 * c1 + 2 ^ 52 * c2 + 2 ^ 78 * c3 + 2 ^ 104 * c4 = total + 5)
    (below : total < 2 ^ 130 + 2 ^ 5) :
    pack (if c4 / 2 ^ 26 % 2 = 1 then [c0, c1, c2, c3, c4] else [g0, g1, g2, g3, g4]) =
      littleEndian 16 (total % prime) := by
  by_cases subtract : c4 / 2 ^ 26 % 2 = 1
  · have reached : prime ≤ total := by
      rw [prime_eq]
      omega
    have rest : total % prime = total - prime := by
      rw [Nat.mod_eq_sub_mod reached]
      refine Nat.mod_eq_of_lt ?_
      rw [prime_eq]
      omega
    rw [if_pos subtract, pack_spec low0' low1' low2' low3', value', rest]
    refine littleEndian_congr ?_
    rw [prime_eq] at reached ⊢
    omega
  · have rest : total % prime = total := by
      refine Nat.mod_eq_of_lt ?_
      rw [prime_eq]
      omega
    rw [if_neg subtract, pack_spec low0 low1 low2 low3, value, rest]

/-- The limbs of the result pack to the accumulator modulo 2^130 - 5. -/
theorem reduce_spec {h : List Int} (reduced : Reduced h) :
    pack ((reduce h).map Int.toNat) =
      littleEndian 16 ((Limbs.value radix h).toNat % prime) := by
  obtain ⟨h0, h1, h2, h3, h4, rfl⟩ := exists_five reduced.length
  have nonneg := reduced.nonneg
  have digits := reduced.digits
  have top := reduced.top
  simp only [List.dropLast, List.mem_cons, List.not_mem_nil, or_false, forall_eq_or_imp,
    forall_eq, Limbs.value_cons, Limbs.value_nil, radix] at nonneg digits top
  have overflow : 0 ≤ h4 / radix * 5 ∧ h4 / radix * 5 < 2 ^ 5 := by
    simp only [radix]
    omega
  -- The 130 low bits with five times the bits above them.
  obtain ⟨value, low, small⟩ := @Limbs.carryAll_spec radix wrap32 (2 ^ 26) (2 ^ 5) radix_pos
    (fun sum low high => wrap32_of_range (by omega) (by omega)) (by decide) (h4 / radix * 5)
    [h0, h1, h2, h3, h4 % radix] overflow.1 overflow.2
    (by
      simp only [List.mem_cons, List.not_mem_nil, or_false, forall_eq_or_imp, forall_eq, radix]
      omega) (by simp)
  obtain ⟨g0, g1, g2, g3, g4, limbs⟩ := exists_five (show
    (Limbs.carryAll radix wrap32 (h4 / radix * 5) [h0, h1, h2, h3, h4 % radix]).length = 5
    by simp)
  have start : reduce [h0, h1, h2, h3, h4] =
      if (Limbs.carryAll radix wrap32 5 [g0, g1, g2, g3, g4]).getD 4 0 / radix % 2 = 1 then
        Limbs.carryAll radix wrap32 5 [g0, g1, g2, g3, g4] else [g0, g1, g2, g3, g4] := by
    rw [← limbs]
    rfl
  rw [limbs] at value low small
  simp only [List.dropLast, List.mem_cons, List.not_mem_nil, or_false, forall_eq_or_imp,
    forall_eq, Limbs.value_cons, Limbs.value_nil, radix] at value low small
  obtain ⟨value', low', small'⟩ := @Limbs.carryAll_spec radix wrap32 (2 ^ 27) (2 ^ 5) radix_pos
    (fun sum low high => wrap32_of_range (by omega) (by omega)) (by decide) 5
    [g0, g1, g2, g3, g4] (by decide) (by decide)
    (by
      simp only [List.mem_cons, List.not_mem_nil, or_false, forall_eq_or_imp, forall_eq]
      omega) (by simp)
  obtain ⟨c0, c1, c2, c3, c4, limbs'⟩ := exists_five (show
    (Limbs.carryAll radix wrap32 5 [g0, g1, g2, g3, g4]).length = 5 by simp)
  rw [limbs'] at value' low' small' start
  simp only [List.dropLast, List.mem_cons, List.not_mem_nil, or_false, forall_eq_or_imp,
    forall_eq, Limbs.value_cons, Limbs.value_nil, radix] at value' low' small'
  -- From here on the limbs are natural numbers.
  obtain ⟨l4, rfl⟩ := Int.eq_ofNat_of_zero_le nonneg.2.2.2.2
  obtain ⟨n0, rfl⟩ := Int.eq_ofNat_of_zero_le low.1
  obtain ⟨n1, rfl⟩ := Int.eq_ofNat_of_zero_le low.2.1
  obtain ⟨n2, rfl⟩ := Int.eq_ofNat_of_zero_le low.2.2.1
  obtain ⟨n3, rfl⟩ := Int.eq_ofNat_of_zero_le low.2.2.2.1
  obtain ⟨n4, rfl⟩ := Int.eq_ofNat_of_zero_le low.2.2.2.2
  obtain ⟨m0, rfl⟩ := Int.eq_ofNat_of_zero_le low'.1
  obtain ⟨m1, rfl⟩ := Int.eq_ofNat_of_zero_le low'.2.1
  obtain ⟨m2, rfl⟩ := Int.eq_ofNat_of_zero_le low'.2.2.1
  obtain ⟨m3, rfl⟩ := Int.eq_ofNat_of_zero_le low'.2.2.2.1
  obtain ⟨m4, rfl⟩ := Int.eq_ofNat_of_zero_le low'.2.2.2.2
  have quotient : (Limbs.value radix [h0, h1, h2, h3, (l4 : Int)]).toNat =
      (n0 + 2 ^ 26 * n1 + 2 ^ 52 * n2 + 2 ^ 78 * n3 + 2 ^ 104 * n4) + l4 / 2 ^ 26 * prime := by
    simp only [Limbs.value_cons, Limbs.value_nil, radix, prime_eq]
    omega
  have selected := @select_spec n0 n1 n2 n3 n4 m0 m1 m2 m3 m4 _ (by omega) (by omega)
    (by omega) (by omega) (by omega) (by omega) (by omega) (by omega) rfl (by omega) (by omega)
  rw [start, quotient, Nat.add_mul_mod_self_right, ← selected]
  have bit : (m4 : Int) / 2 ^ 26 % 2 = 1 ↔ m4 / 2 ^ 26 % 2 = 1 := by omega
  simp only [List.getD_cons_succ, List.getD_cons_zero, radix]
  by_cases subtract : m4 / 2 ^ 26 % 2 = 1
  · rw [if_pos subtract, if_pos (bit.mpr subtract)]
    rfl
  · rw [if_neg subtract, if_neg (fun set => subtract (bit.mp set))]
    rfl

theorem addNonce_spec {nonce bytes : Bytes} (carry : Nat) (length : nonce.length = bytes.length) :
    addNonce carry nonce bytes =
      littleEndian bytes.length (carry + ofLittleEndian nonce + ofLittleEndian bytes) := by
  induction nonce generalizing bytes carry with
  | nil =>
      obtain rfl := List.length_eq_zero_iff.mp length.symm
      rfl
  | cons byte rest ih =>
      obtain ⟨byte', rest', rfl⟩ := List.exists_of_length_succ bytes length.symm
      have head : UInt8.ofNat (carry + ofLittleEndian (byte :: rest) +
          ofLittleEndian (byte' :: rest')) = UInt8.ofNat (carry + byte.toNat + byte'.toNat) := by
        apply UInt8.toNat_inj.mp
        rw [UInt8.toNat_ofNat', UInt8.toNat_ofNat', ofLittleEndian_cons, ofLittleEndian_cons]
        omega
      have tail : (carry + ofLittleEndian (byte :: rest) + ofLittleEndian (byte' :: rest')) / 256 =
          (carry + byte.toNat + byte'.toNat) / 256 + ofLittleEndian rest +
            ofLittleEndian rest' := by
        rw [ofLittleEndian_cons, ofLittleEndian_cons]
        omega
      rw [addNonce, ih _ (Nat.succ.inj length), List.length_cons, littleEndian, head, tail]

/-! ## Blocks -/

theorem blockValue_eq (block : Bytes) :
    blockValue block = ofLittleEndian block + 256 ^ block.length := by
  rw [blockValue, ofLittleEndian_append, ofLittleEndian_cons, ofLittleEndian_nil]
  simp

/-! ## The stream of chunks -/

/-- The limbs hold `acc`, up to multiples of the prime, and the key `r`. -/
structure Holds (r acc : Nat) (poly : Poly1305) : Prop where
  key : Digits poly.r
  keyValue : Limbs.value radix poly.r = r
  keyTop : r < 2 ^ 124
  reduced : Reduced poly.h
  accumulated : (Limbs.value radix poly.h).toNat % prime = acc % prime

theorem Holds.processChunk {r acc : Nat} {poly : Poly1305} (holds : Holds r acc poly)
    {chunk : Bytes} (length : chunk.length = 16) (finalChunk : Bool) :
    Holds r ((acc + (ofLittleEndian chunk + if finalChunk then 0 else 2 ^ 128)) * r % prime)
      (poly.processChunk chunk finalChunk) := by
  obtain ⟨digits, value⟩ := unpack_spec length finalChunk
  have bound := ofLittleEndian_lt chunk
  rw [length] at bound
  have chunkTop : Limbs.value radix ((unpack chunk finalChunk).map Int.ofNat) < 2 ^ 129 := by
    rw [value]
    split <;> omega
  have keyTop := holds.keyTop
  obtain ⟨reduced, divides⟩ := step_spec holds.key (by rw [holds.keyValue]; exact_mod_cast keyTop)
    holds.reduced digits chunkTop
  refine ⟨holds.key, holds.keyValue, keyTop, reduced, ?_⟩
  have low := Limbs.value_nonneg radix_pos holds.reduced.nonneg
  have low' := Limbs.value_nonneg radix_pos reduced.nonneg
  obtain ⟨sum, sumEq⟩ := Int.eq_ofNat_of_zero_le low
  obtain ⟨next, nextEq⟩ := Int.eq_ofNat_of_zero_le low'
  have accumulated := holds.accumulated
  rw [sumEq, Int.toNat_natCast] at accumulated
  rw [sumEq, value, holds.keyValue, nextEq] at divides
  change (Limbs.value radix (step poly.r poly.h _)).toNat % prime = _
  rw [nextEq, Int.toNat_natCast, Nat.mod_mod]
  have congruent : Nat.ModEq prime next
      ((sum + (ofLittleEndian chunk + if finalChunk then 0 else 2 ^ 128)) * r) := by
    rw [← Int.natCast_modEq_iff]
    exact Int.modEq_iff_dvd.mpr (by exact_mod_cast divides)
  exact congruent.trans (Nat.ModEq.mul_right r (Nat.ModEq.add_right _ accumulated))

/-- `poly` has been given `data`: `whole` in chunks, the rest is in its block. -/
structure Absorbed (r : Nat) (nonce data : Bytes) (poly : Poly1305) : Prop where
  split : ∃ whole count, data = whole ++ poly.block ∧ whole.length = 16 * count ∧
    Holds r (polynomial r whole) poly
  nonceEq : poly.nonce = nonce

theorem polynomial_lt (r : Nat) (data : Bytes) : polynomial r data < prime := by
  have positive : 0 < prime := by decide
  rcases List.eq_nil_or_concat (blocks 16 data) with empty | ⟨front, last, divided⟩
  · rw [polynomial, overBlocks, empty]
    exact positive
  · rw [polynomial, overBlocks, divided, List.concat_eq_append, List.foldl_concat]
    exact Nat.mod_lt _ positive

theorem polynomial_append {whole chunk : Bytes} {count : Nat} (r : Nat)
    (length : whole.length = 16 * count) (nonempty : chunk ≠ []) (short : chunk.length ≤ 16) :
    polynomial r (whole ++ chunk) = absorb r (polynomial r whole) chunk := by
  rw [polynomial, overBlocks_append (by decide) chunk ⟨count, length⟩,
    overBlocks_single nonempty short]
  rfl

/-- A chunk that has been processed joins the whole ones. -/
theorem Absorbed.chunk {r : Nat} {nonce data whole block chunk : Bytes} {count : Nat}
    {poly : Poly1305} (split : data = whole ++ block) (length : whole.length = 16 * count)
    (holds : Holds r (polynomial r whole) poly) (chunkLength : chunk.length = 16)
    (nonceEq : poly.nonce = nonce) (empty : poly.block = []) {more : Bytes}
    (chunkEq : chunk = block ++ more) :
    Absorbed r nonce (data ++ more) (poly.processChunk chunk false) := by
  have nonempty : chunk ≠ [] := by
    rw [← List.length_pos_iff]
    omega
  refine ⟨⟨whole ++ chunk, count + 1, ?_, ?_, ?_⟩, nonceEq⟩
  · change data ++ more = whole ++ chunk ++ poly.block
    rw [split, empty, chunkEq]
    simp
  · rw [List.length_append]
    omega
  · rw [polynomial_append r length nonempty (by omega), absorb, blockValue_eq, chunkLength]
    exact holds.processChunk chunkLength false

theorem Absorbed.update {r : Nat} {nonce data : Bytes} {poly : Poly1305} (more : Bytes)
    (absorbed : Absorbed r nonce data poly) :
    Absorbed r nonce (data ++ more) (poly.update more) := by
  induction poly, more using Poly1305.update.induct generalizing data with
  | case1 poly =>
      rw [Poly1305.update, if_pos rfl, List.append_nil]
      exact absorbed
  | case2 poly more nonempty direct ih =>
      obtain ⟨⟨whole, count, split, length, holds⟩, nonceEq⟩ := absorbed
      rw [Poly1305.update, if_neg nonempty, if_pos direct]
      have next := Absorbed.chunk split length holds
        (show (more.take 16).length = 16 by rw [List.length_take]; omega) nonceEq direct.1
        (by rw [direct.1]; rfl)
      have rest := ih next
      rwa [List.append_assoc, List.take_append_drop] at rest
  | case3 poly more nonempty indirect temp room =>
      rename_i ih
      obtain ⟨⟨whole, count, split, length, holds⟩, nonceEq⟩ := absorbed
      rw [Poly1305.update, if_neg nonempty, if_neg indirect]
      simp only
      rw [dif_pos (show (poly.block ++ more.take (min (16 - poly.block.length)
        more.length)).length < 16 from room)]
      have next : Absorbed r nonce (data ++ more.take temp)
          { poly with block := poly.block ++ more.take temp, posn_lt := room } :=
        ⟨⟨whole, count, by rw [split, List.append_assoc], length, ⟨holds.key, holds.keyValue,
          holds.keyTop, holds.reduced, holds.accumulated⟩⟩, nonceEq⟩
      have rest := ih next
      rw [List.append_assoc, List.take_append_drop] at rest
      exact rest
  | case4 poly more nonempty indirect temp room =>
      rename_i ih
      obtain ⟨⟨whole, count, split, length, holds⟩, nonceEq⟩ := absorbed
      rw [Poly1305.update, if_neg nonempty, if_neg indirect]
      simp only
      rw [dif_neg (show ¬(poly.block ++ more.take (min (16 - poly.block.length)
        more.length)).length < 16 from room)]
      have full :
          (poly.block ++ more.take (min (16 - poly.block.length) more.length)).length = 16 := by
        have posn := poly.posn_lt
        rw [List.length_append, List.length_take] at room ⊢
        omega
      have emptied : Holds r (polynomial r whole)
          { poly with block := [], posn_lt := by simp } :=
        ⟨holds.key, holds.keyValue, holds.keyTop, holds.reduced, holds.accumulated⟩
      have next := Absorbed.chunk split length emptied full nonceEq rfl rfl
      have rest := ih next
      rw [List.append_assoc, List.take_append_drop] at rest
      exact rest

/-- Padding is an update with the zeros that are missing. -/
theorem pad_eq (poly : Poly1305) :
    poly.pad = poly.update (List.replicate ((16 - poly.block.length) % 16) 0) := by
  have posn := poly.posn_lt
  by_cases empty : poly.block = []
  · rw [pad, if_pos empty, empty]
    change poly = poly.update []
    rw [Poly1305.update, if_pos rfl]
  · have some : 0 < poly.block.length := List.length_pos_iff.mpr empty
    have missing : (16 - poly.block.length) % 16 = 16 - poly.block.length :=
      Nat.mod_eq_of_lt (by omega)
    have zeros : (List.replicate (16 - poly.block.length) (0 : UInt8)).length =
        16 - poly.block.length := List.length_replicate
    have nonempty : List.replicate (16 - poly.block.length) (0 : UInt8) ≠ [] := by
      rw [← List.length_pos_iff, zeros]
      omega
    have taken : (List.replicate (16 - poly.block.length) (0 : UInt8)).take
        (16 - poly.block.length) = List.replicate (16 - poly.block.length) 0 :=
      List.take_of_length_le zeros.le
    have dropped : (List.replicate (16 - poly.block.length) (0 : UInt8)).drop
        (16 - poly.block.length) = [] := List.drop_of_length_le zeros.le
    have full : ¬(poly.block ++ List.replicate (16 - poly.block.length) 0).length < 16 := by
      rw [List.length_append, zeros]
      omega
    rw [pad, if_neg empty, missing, Poly1305.update, if_neg nonempty,
      if_neg (fun direct => empty direct.1)]
    simp only [zeros, Nat.min_self, taken, dropped, dif_neg full]
    rw [Poly1305.update, if_pos rfl]

theorem reduced_zero : Reduced (List.replicate 5 0) :=
  ⟨rfl, by decide, by decide, by decide⟩

theorem reset_absorbed {key : Bytes} (length : key.length = 32) :
    Absorbed (ofLittleEndian (clamp key)) ((key.drop 16).take 16) [] (reset key) := by
  obtain ⟨digits, value⟩ := unpack_spec (clamp_length (by omega : 16 ≤ key.length)) true
  rw [← unpackKey_eq (by omega)] at digits value
  have start : (Limbs.value radix (reset key).h).toNat = 0 := by
    change (Limbs.value radix (List.replicate 5 0)).toNat = 0
    rw [Limbs.value_replicate_zero]
    rfl
  refine ⟨⟨[], 0, rfl, rfl, digits, value, clamp_lt (by omega), reduced_zero, ?_⟩, rfl⟩
  rw [start, polynomial, overBlocks_nil]

theorem Absorbed.updates {r : Nat} {nonce data : Bytes} {poly : Poly1305} (pieces : List Bytes)
    (absorbed : Absorbed r nonce data poly) :
    Absorbed r nonce (data ++ pieces.flatten) (pieces.foldl Poly1305.update poly) := by
  induction pieces generalizing data poly with
  | nil => simpa using absorbed
  | cons piece pieces ih =>
      rw [List.flatten_cons, ← List.append_assoc]
      exact ih (absorbed.update piece)

/-- Padding completes the last block with zeros. -/
theorem Absorbed.pad {r : Nat} {nonce data : Bytes} {poly : Poly1305}
    (absorbed : Absorbed r nonce data poly) :
    Absorbed r nonce (data ++ List.replicate ((16 - data.length % 16) % 16) 0) poly.pad := by
  obtain ⟨⟨whole, count, split, length, _⟩, _⟩ := id absorbed
  have posn := poly.posn_lt
  have rest : data.length % 16 = poly.block.length := by
    rw [split, List.length_append, length]
    omega
  rw [pad_eq, rest]
  exact absorbed.update _

theorem Absorbed.finish {r : Nat} {nonce data : Bytes} {poly : Poly1305}
    (absorbed : Absorbed r nonce data poly) (length : nonce.length = 16) :
    poly.finish = littleEndian 16 (polynomial r data + ofLittleEndian nonce) := by
  obtain ⟨⟨whole, count, split, whole16, holds⟩, nonceEq⟩ := absorbed
  have posn := poly.posn_lt
  -- A final chunk ends with a bit above the bytes that were left.
  have last : ∃ final : Poly1305, poly.finish = addNonce 0 final.nonce
      (pack ((reduce final.h).map Int.toNat)) ∧ final.nonce = nonce ∧
        Holds r (polynomial r data) final := by
    by_cases empty : poly.block = []
    · refine ⟨poly, by rw [Poly1305.finish, if_pos empty], nonceEq, ?_⟩
      rw [split, empty, List.append_nil]
      exact holds
    · refine ⟨poly.processChunk (poly.block ++ [1] ++ List.replicate (15 - poly.block.length) 0)
        true, by rw [Poly1305.finish, if_neg empty], nonceEq, ?_⟩
      have full : (poly.block ++ [1] ++ List.replicate (15 - poly.block.length) 0).length = 16 := by
        simp only [List.length_append, List.length_cons, List.length_nil, List.length_replicate]
        omega
      have next := holds.processChunk full true
      rw [ofLittleEndian_append, ofLittleEndian_replicate_zero, Nat.mul_zero, Nat.add_zero,
        if_pos rfl, Nat.add_zero] at next
      rw [split, polynomial_append r whole16 empty (by omega)]
      exact next
  obtain ⟨final, finished, finalNonce, finalHolds⟩ := last
  rw [finished, finalNonce, reduce_spec finalHolds.reduced, finalHolds.accumulated,
    addNonce_spec 0 (by rw [length, littleEndian_length]), ofLittleEndian_littleEndian,
    littleEndian_length]
  rw [Nat.mod_eq_of_lt (polynomial_lt r data)]
  refine littleEndian_congr ?_
  omega

/-- However the message is cut into updates, the limbs compute the authenticator. -/
theorem finish_updates (key : Bytes) (pieces : List Bytes) (length : key.length = 32) :
    (pieces.foldl update (reset key)).finish = mac key pieces.flatten := by
  have absorbed := (reset_absorbed length).updates pieces
  rw [List.nil_append] at absorbed
  exact absorbed.finish (by rw [List.length_take, List.length_drop]; omega)

theorem finish_two_updates :
    ([[1, 2], [3]].foldl update (reset (List.replicate 32 7))).finish =
      mac (List.replicate 32 7) [1, 2, 3] :=
  finish_updates (List.replicate 32 7) [[1, 2], [3]] List.length_replicate

end Conclave.NoiseCrypto.Poly1305
