import ConclaveFormal.Lib.DataStream

/-!
# UTF-8 with replacement

The decoding and encoding of strings that never fails: malformed bytes become the replacement
character, and an unpaired surrogate becomes a question mark.
-/

set_option autoImplicit false

namespace Conclave.Lib

def REPLACEMENT : UInt16 := 0xFFFD

def isHighSurrogate (unit : UInt16) : Bool := 0xD800 ≤ unit && unit < 0xDC00

def isLowSurrogate (unit : UInt16) : Bool := 0xDC00 ≤ unit && unit < 0xE000

def isSurrogate (codePoint : Nat) : Bool := 0xD800 ≤ codePoint && codePoint < 0xE000

def isNotContinuation (byte : UInt8) : Bool := byte &&& 0xC0 != 0x80

/-! ## Decoding -/

def isMalformed3_2 (b1 b2 : UInt8) : Bool :=
  (b1 == 0xE0 && b2 &&& 0xE0 == 0x80) || isNotContinuation b2

def isMalformed4_2 (b1 b2 : UInt8) : Bool :=
  (b1 == 0xF0 && (b2 < 0x90 || b2 > 0xBF)) || (b1 == 0xF4 && b2 &&& 0xF0 != 0x80) ||
    isNotContinuation b2

/-- The six bits of a continuation byte. -/
def continuationBits (byte : UInt8) : Nat := byte.toNat % 0x40

def decode2 (b1 : UInt8) : Bytes → JString × Bytes
  | [] => ([REPLACEMENT], [])
  | b2 :: rest =>
      if isNotContinuation b2 then ([REPLACEMENT], b2 :: rest)
      else ([UInt16.ofNat (b1.toNat % 0x20 * 0x40 + continuationBits b2)], rest)

/-- At the end of the input an incomplete character is malformed as a whole. -/
def decode3 (b1 : UInt8) : Bytes → JString × Bytes
  | [] => ([REPLACEMENT], [])
  | [b2] => ([REPLACEMENT], if isMalformed3_2 b1 b2 then [b2] else [])
  | b2 :: b3 :: rest =>
      let codePoint := b1.toNat % 0x10 * 0x1000 + continuationBits b2 * 0x40 + continuationBits b3
      if isMalformed3_2 b1 b2 then ([REPLACEMENT], b2 :: b3 :: rest)
      else if isNotContinuation b3 then ([REPLACEMENT], b3 :: rest)
      else if isSurrogate codePoint then ([REPLACEMENT], rest)
      else ([UInt16.ofNat codePoint], rest)

def surrogates (codePoint : Nat) : JString :=
  [UInt16.ofNat (0xD800 + (codePoint - 0x10000) / 0x400),
    UInt16.ofNat (0xDC00 + (codePoint - 0x10000) % 0x400)]

def isMalformed4 (b1 b2 : UInt8) : Bool := b1 > 0xF4 || isMalformed4_2 b1 b2

def decode4 (b1 : UInt8) : Bytes → JString × Bytes
  | [] => ([REPLACEMENT], [])
  | [b2] => ([REPLACEMENT], if isMalformed4 b1 b2 then [b2] else [])
  | [b2, b3] =>
      ([REPLACEMENT],
        if isMalformed4 b1 b2 then [b2, b3] else if isNotContinuation b3 then [b3] else [])
  | b2 :: b3 :: b4 :: rest =>
      if isMalformed4 b1 b2 then ([REPLACEMENT], b2 :: b3 :: b4 :: rest)
      else if isNotContinuation b3 then ([REPLACEMENT], b3 :: b4 :: rest)
      else if isNotContinuation b4 then ([REPLACEMENT], b4 :: rest)
      else (surrogates (b1.toNat % 8 * 0x40000 + continuationBits b2 * 0x1000 +
        continuationBits b3 * 0x40 + continuationBits b4), rest)

/-- The next character, or the replacement for the malformed bytes in its place. -/
def decodeNext (b1 : UInt8) (rest : Bytes) : JString × Bytes :=
  if b1 < 0x80 then ([b1.toUInt16], rest)
  else if 0xC2 ≤ b1 && b1 < 0xE0 then decode2 b1 rest
  else if 0xE0 ≤ b1 && b1 < 0xF0 then decode3 b1 rest
  else if 0xF0 ≤ b1 && b1 < 0xF8 then decode4 b1 rest
  else ([REPLACEMENT], rest)

def decodeLoop : Nat → Bytes → JString
  | 0, _ => []
  | _ + 1, [] => []
  | fuel + 1, b1 :: rest => (decodeNext b1 rest).1 ++ decodeLoop fuel (decodeNext b1 rest).2

/-- `Charsets.UTF_8.decode`. -/
def decodeUtf8 (bytes : Bytes) : JString := decodeLoop bytes.length bytes

theorem decode2_length (b1 : UInt8) (rest : Bytes) :
    (decode2 b1 rest).2.length ≤ rest.length := by
  cases rest with
  | nil => exact Nat.le_refl 0
  | cons b2 rest =>
      rw [decode2]
      split
      · exact Nat.le_refl _
      · exact Nat.le_succ _

theorem decode3_length (b1 : UInt8) (rest : Bytes) :
    (decode3 b1 rest).2.length ≤ rest.length := by
  fun_cases decode3 b1 rest <;> simp only [List.length_cons, List.length_nil] <;> grind

theorem decode4_length (b1 : UInt8) (rest : Bytes) :
    (decode4 b1 rest).2.length ≤ rest.length := by
  fun_cases decode4 b1 rest <;> simp only [List.length_cons, List.length_nil] <;> grind

theorem decodeNext_length (b1 : UInt8) (rest : Bytes) :
    (decodeNext b1 rest).2.length ≤ rest.length := by
  rw [decodeNext]
  split_ifs
  · exact Nat.le_refl _
  · exact decode2_length b1 rest
  · exact decode3_length b1 rest
  · exact decode4_length b1 rest
  · exact Nat.le_refl _

/-- A step for each byte is enough. -/
theorem decodeLoop_enough {fuel : Nat} {bytes : Bytes} (enough : bytes.length ≤ fuel) :
    decodeLoop fuel bytes = decodeUtf8 bytes := by
  induction fuel using Nat.strong_induction_on generalizing bytes with
  | _ fuel ih =>
      cases bytes with
      | nil => cases fuel <;> rfl
      | cons b1 rest =>
          cases fuel with
          | zero => exact absurd enough (Nat.not_succ_le_zero _)
          | succ fuel =>
              have shorter := decodeNext_length b1 rest
              rw [List.length_cons] at enough
              rw [decodeUtf8, List.length_cons, decodeLoop, decodeLoop,
                ih fuel (Nat.lt_succ_self fuel) (by omega)]
              by_cases same : fuel = rest.length
              · rw [← same, ih fuel (Nat.lt_succ_self fuel) (by omega)]
              · rw [ih rest.length (by omega) shorter]

theorem decodeUtf8_cons (b1 : UInt8) (rest : Bytes) :
    decodeUtf8 (b1 :: rest) = (decodeNext b1 rest).1 ++ decodeUtf8 (decodeNext b1 rest).2 := by
  rw [decodeUtf8, List.length_cons, decodeLoop, decodeLoop_enough (decodeNext_length b1 rest)]

/-! ## Encoding -/

def encode1 (unit : UInt16) : Bytes :=
  let value := unit.toNat
  if value < 0x80 then [UInt8.ofNat value]
  else if value < 0x800 then [UInt8.ofNat (0xC0 + value / 0x40), UInt8.ofNat (0x80 + value % 0x40)]
  else if isSurrogate value then [0x3F]
  else [UInt8.ofNat (0xE0 + value / 0x1000), UInt8.ofNat (0x80 + value / 0x40 % 0x40),
    UInt8.ofNat (0x80 + value % 0x40)]

def encode4 (high low : UInt16) : Bytes :=
  let codePoint := 0x10000 + (high.toNat - 0xD800) * 0x400 + (low.toNat - 0xDC00)
  [UInt8.ofNat (0xF0 + codePoint / 0x40000), UInt8.ofNat (0x80 + codePoint / 0x1000 % 0x40),
    UInt8.ofNat (0x80 + codePoint / 0x40 % 0x40), UInt8.ofNat (0x80 + codePoint % 0x40)]

/-- `String.getBytes` in UTF-8. -/
def encodeUtf8 : JString → Bytes
  | [] => []
  | [unit] => encode1 unit
  | first :: second :: rest =>
      if isHighSurrogate first && isLowSurrogate second then
        encode4 first second ++ encodeUtf8 rest
      else encode1 first ++ encodeUtf8 (second :: rest)

/-! ## ASCII -/

def Ascii (text : JString) : Prop := ∀ unit ∈ text, unit.toNat < 0x80

theorem decodeNext_ascii {unit : UInt16} (small : unit.toNat < 0x80) (rest : Bytes) :
    decodeNext (UInt8.ofNat unit.toNat) rest = ([unit], rest) := by
  have value : (UInt8.ofNat unit.toNat).toNat = unit.toNat := by
    rw [UInt8.toNat_ofNat']
    omega
  have below : UInt8.ofNat unit.toNat < 0x80 := by
    rw [UInt8.lt_iff_toNat_lt, value]
    exact small
  have same : (UInt8.ofNat unit.toNat).toUInt16 = unit := by
    rw [← UInt16.toNat_inj, UInt8.toNat_toUInt16, value]
  rw [decodeNext, if_pos below, same]

/-! ## Valid Unicode -/

/-- Every surrogate is one of a pair. -/
inductive ValidUnicode : JString → Prop where
  | nil : ValidUnicode []
  | basic {unit : UInt16} {rest : JString} (single : isSurrogate unit.toNat = false)
      (valid : ValidUnicode rest) : ValidUnicode (unit :: rest)
  | pair {high low : UInt16} {rest : JString} (isHigh : isHighSurrogate high = true)
      (isLow : isLowSurrogate low = true) (valid : ValidUnicode rest) :
      ValidUnicode (high :: low :: rest)

theorem isHighSurrogate_iff (unit : UInt16) :
    isHighSurrogate unit = true ↔ 0xD800 ≤ unit.toNat ∧ unit.toNat < 0xDC00 := by
  rw [isHighSurrogate, Bool.and_eq_true, decide_eq_true_iff, decide_eq_true_iff,
    UInt16.le_iff_toNat_le, UInt16.lt_iff_toNat_lt]
  exact Iff.rfl

theorem isLowSurrogate_iff (unit : UInt16) :
    isLowSurrogate unit = true ↔ 0xDC00 ≤ unit.toNat ∧ unit.toNat < 0xE000 := by
  rw [isLowSurrogate, Bool.and_eq_true, decide_eq_true_iff, decide_eq_true_iff,
    UInt16.le_iff_toNat_le, UInt16.lt_iff_toNat_lt]
  exact Iff.rfl

theorem isSurrogate_eq_false_iff (codePoint : Nat) :
    isSurrogate codePoint = false ↔ codePoint < 0xD800 ∨ 0xE000 ≤ codePoint := by
  rw [isSurrogate, Bool.and_eq_false_iff, decide_eq_false_iff_not, decide_eq_false_iff_not]
  omega

theorem encodeUtf8_basic {unit : UInt16} (single : isSurrogate unit.toNat = false)
    (rest : JString) : encodeUtf8 (unit :: rest) = encode1 unit ++ encodeUtf8 rest := by
  cases rest with
  | nil => exact (List.append_nil _).symm
  | cons second rest =>
      have notHigh : isHighSurrogate unit = false := by
        rw [Bool.eq_false_iff, Ne, isHighSurrogate_iff]
        have range := (isSurrogate_eq_false_iff _).mp single
        omega
      rw [encodeUtf8, notHigh, Bool.false_and, if_neg Bool.false_ne_true]

theorem encodeUtf8_pair {high low : UInt16} (isHigh : isHighSurrogate high = true)
    (isLow : isLowSurrogate low = true) (rest : JString) :
    encodeUtf8 (high :: low :: rest) = encode4 high low ++ encodeUtf8 rest := by
  rw [encodeUtf8, isHigh, isLow, Bool.and_self, if_pos rfl]

/-! ### Continuation bytes -/

theorem isNotContinuation_of_lt {bits : Nat} (small : bits < 0x40) :
    isNotContinuation (UInt8.ofNat (0x80 + bits)) = false := by
  have all : ∀ bits : Fin 0x40, isNotContinuation (UInt8.ofNat (0x80 + bits.val)) = false := by
    decide
  exact all ⟨bits, small⟩

theorem continuationBits_of_lt {bits : Nat} (small : bits < 0x40) :
    continuationBits (UInt8.ofNat (0x80 + bits)) = bits := by
  rw [continuationBits, UInt8.toNat_ofNat']
  omega

/-- The overlong forms of three bytes are those whose second byte is below `0xA0`. -/
theorem isMalformed3_2_of_lt {first bits : Nat} (nibble : first < 0x10) (small : bits < 0x40)
    (long : 0x20 ≤ first * 0x40 + bits) :
    isMalformed3_2 (UInt8.ofNat (0xE0 + first)) (UInt8.ofNat (0x80 + bits)) = false := by
  have second : ∀ bits : Fin 0x40, 0x20 ≤ bits.val →
      (UInt8.ofNat (0x80 + bits.val) &&& 0xE0 == 0x80) = false := by decide
  rw [isMalformed3_2, isNotContinuation_of_lt small, Bool.or_false, Bool.and_eq_false_iff]
  by_cases zero : first = 0
  · exact .inr (second ⟨bits, small⟩ (by omega : 0x20 ≤ bits))
  · refine .inl (beq_eq_false_iff_ne.mpr fun same => ?_)
    have values := congrArg UInt8.toNat same
    rw [UInt8.toNat_ofNat'] at values
    have lead : (0xE0 : UInt8).toNat = 0xE0 := rfl
    omega

/-- Those of four bytes, and what is beyond the last plane. -/
theorem isMalformed4_of_lt {first bits : Nat} (small : bits < 0x40)
    (long : 0x10 ≤ first * 0x40 + bits) (last : first * 0x40 + bits < 0x110) :
    isMalformed4 (UInt8.ofNat (0xF0 + first)) (UInt8.ofNat (0x80 + bits)) = false := by
  have all : ∀ first : Fin 5, ∀ bits : Fin 0x40, 0x10 ≤ first.val * 0x40 + bits.val →
      first.val * 0x40 + bits.val < 0x110 →
        isMalformed4 (UInt8.ofNat (0xF0 + first.val)) (UInt8.ofNat (0x80 + bits.val)) = false := by
    decide
  exact all ⟨first, by omega⟩ ⟨bits, small⟩ long last

/-! ### One character -/

/-- The lead byte as a number. -/
theorem decodeNext_eq (b1 : UInt8) (rest : Bytes) :
    decodeNext b1 rest =
      if b1.toNat < 0x80 then ([b1.toUInt16], rest)
      else if 0xC2 ≤ b1.toNat ∧ b1.toNat < 0xE0 then decode2 b1 rest
      else if 0xE0 ≤ b1.toNat ∧ b1.toNat < 0xF0 then decode3 b1 rest
      else if 0xF0 ≤ b1.toNat ∧ b1.toNat < 0xF8 then decode4 b1 rest
      else ([REPLACEMENT], rest) := by
  simp only [decodeNext, Bool.and_eq_true, decide_eq_true_iff, UInt8.lt_iff_toNat_lt,
    UInt8.le_iff_toNat_le, UInt8.reduceToNat]

theorem decodeNext_two {value : Nat} (above : 0x80 ≤ value) (below : value < 0x800)
    (rest : Bytes) :
    decodeNext (UInt8.ofNat (0xC0 + value / 0x40)) (UInt8.ofNat (0x80 + value % 0x40) :: rest) =
      ([UInt16.ofNat value], rest) := by
  have lead : (UInt8.ofNat (0xC0 + value / 0x40)).toNat = 0xC0 + value / 0x40 := by
    rw [UInt8.toNat_ofNat']
    omega
  have small : value % 0x40 < 0x40 := Nat.mod_lt _ (by decide)
  have sum : (0xC0 + value / 0x40) % 0x20 * 0x40 + value % 0x40 = value := by omega
  rw [decodeNext_eq, lead, if_neg (by omega), if_pos (by omega), decode2,
    isNotContinuation_of_lt small, if_neg Bool.false_ne_true, continuationBits_of_lt small, lead,
    sum]

theorem decodeNext_three {value : Nat} (above : 0x800 ≤ value) (below : value < 0x10000)
    (single : isSurrogate value = false) (rest : Bytes) :
    decodeNext (UInt8.ofNat (0xE0 + value / 0x1000))
        (UInt8.ofNat (0x80 + value / 0x40 % 0x40) :: UInt8.ofNat (0x80 + value % 0x40) :: rest) =
      ([UInt16.ofNat value], rest) := by
  have lead : (UInt8.ofNat (0xE0 + value / 0x1000)).toNat = 0xE0 + value / 0x1000 := by
    rw [UInt8.toNat_ofNat']
    omega
  have small : value % 0x40 < 0x40 := Nat.mod_lt _ (by decide)
  have smallMiddle : value / 0x40 % 0x40 < 0x40 := Nat.mod_lt _ (by decide)
  have wellFormed := isMalformed3_2_of_lt (by omega : value / 0x1000 < 0x10) smallMiddle (by omega)
  have sum : (0xE0 + value / 0x1000) % 0x10 * 0x1000 + value / 0x40 % 0x40 * 0x40 + value % 0x40 =
      value := by omega
  rw [decodeNext_eq, lead, if_neg (by omega), if_neg (by omega), if_pos (by omega), decode3]
  simp only [wellFormed, isNotContinuation_of_lt small, continuationBits_of_lt small,
    continuationBits_of_lt smallMiddle, lead, sum, single, Bool.false_eq_true, if_false]

theorem decodeNext_four {value : Nat} (above : 0x10000 ≤ value) (below : value < 0x110000)
    (rest : Bytes) :
    decodeNext (UInt8.ofNat (0xF0 + value / 0x40000))
        (UInt8.ofNat (0x80 + value / 0x1000 % 0x40) :: UInt8.ofNat (0x80 + value / 0x40 % 0x40) ::
          UInt8.ofNat (0x80 + value % 0x40) :: rest) =
      (surrogates value, rest) := by
  have lead : (UInt8.ofNat (0xF0 + value / 0x40000)).toNat = 0xF0 + value / 0x40000 := by
    rw [UInt8.toNat_ofNat']
    omega
  have small : value % 0x40 < 0x40 := Nat.mod_lt _ (by decide)
  have smallThird : value / 0x40 % 0x40 < 0x40 := Nat.mod_lt _ (by decide)
  have smallSecond : value / 0x1000 % 0x40 < 0x40 := Nat.mod_lt _ (by decide)
  have wellFormed := isMalformed4_of_lt smallSecond
    (by omega : 0x10 ≤ value / 0x40000 * 0x40 + value / 0x1000 % 0x40) (by omega)
  have sum : (0xF0 + value / 0x40000) % 8 * 0x40000 + value / 0x1000 % 0x40 * 0x1000 +
      value / 0x40 % 0x40 * 0x40 + value % 0x40 = value := by omega
  rw [decodeNext_eq, lead, if_neg (by omega), if_neg (by omega), if_neg (by omega),
    if_pos (by omega), decode4]
  simp only [wellFormed, isNotContinuation_of_lt small, isNotContinuation_of_lt smallThird,
    continuationBits_of_lt small, continuationBits_of_lt smallThird,
    continuationBits_of_lt smallSecond, lead, sum, Bool.false_eq_true, if_false]

theorem decodeUtf8_encode1 {unit : UInt16} (single : isSurrogate unit.toNat = false)
    (rest : Bytes) : decodeUtf8 (encode1 unit ++ rest) = unit :: decodeUtf8 rest := by
  have bound := unit.toNat_lt
  have same : UInt16.ofNat unit.toNat = unit := UInt16.ofNat_toNat
  rw [encode1]
  by_cases one : unit.toNat < 0x80
  · rw [if_pos one, List.singleton_append, decodeUtf8_cons, decodeNext_ascii one]
    rfl
  · rw [if_neg one]
    by_cases two : unit.toNat < 0x800
    · rw [if_pos two, List.cons_append, List.singleton_append, decodeUtf8_cons,
        decodeNext_two (by omega) two, same]
      rfl
    · rw [if_neg two, single, if_neg Bool.false_ne_true, List.cons_append, List.cons_append,
        List.singleton_append, decodeUtf8_cons, decodeNext_three (by omega) (by omega) single, same]
      rfl

theorem decodeUtf8_encode4 {high low : UInt16} (isHigh : isHighSurrogate high = true)
    (isLow : isLowSurrogate low = true) (rest : Bytes) :
    decodeUtf8 (encode4 high low ++ rest) = high :: low :: decodeUtf8 rest := by
  have highRange := (isHighSurrogate_iff high).mp isHigh
  have lowRange := (isLowSurrogate_iff low).mp isLow
  have first : UInt16.ofNat high.toNat = high := UInt16.ofNat_toNat
  have second : UInt16.ofNat low.toNat = low := UInt16.ofNat_toNat
  have split : surrogates (0x10000 + (high.toNat - 0xD800) * 0x400 + (low.toNat - 0xDC00)) =
      [high, low] := by
    have front : 0xD800 + (0x10000 + (high.toNat - 0xD800) * 0x400 + (low.toNat - 0xDC00) -
        0x10000) / 0x400 = high.toNat := by omega
    have back : 0xDC00 + (0x10000 + (high.toNat - 0xD800) * 0x400 + (low.toNat - 0xDC00) -
        0x10000) % 0x400 = low.toNat := by omega
    rw [surrogates, front, back, first, second]
  rw [encode4, List.cons_append, List.cons_append, List.cons_append, List.singleton_append,
    decodeUtf8_cons, decodeNext_four (by omega) (by omega), split]
  rfl

/-- Valid text comes back. -/
theorem decodeUtf8_encodeUtf8 {text : JString} (valid : ValidUnicode text) :
    decodeUtf8 (encodeUtf8 text) = text := by
  induction valid with
  | nil => rfl
  | basic single valid ih => rw [encodeUtf8_basic single, decodeUtf8_encode1 single, ih]
  | pair isHigh isLow valid ih =>
      rw [encodeUtf8_pair isHigh isLow, decodeUtf8_encode4 isHigh isLow, ih]

theorem Ascii.valid {text : JString} (ascii : Ascii text) : ValidUnicode text := by
  induction text with
  | nil => exact .nil
  | cons first rest ih =>
      have small := ascii first List.mem_cons_self
      have single : isSurrogate first.toNat = false :=
        (isSurrogate_eq_false_iff _).mpr (.inl (by omega))
      exact .basic single (ih fun unit member => ascii unit (List.mem_cons_of_mem first member))

theorem decodeUtf8_encodeUtf8_ascii {text : JString} (ascii : Ascii text) :
    decodeUtf8 (encodeUtf8 text) = text :=
  decodeUtf8_encodeUtf8 ascii.valid

end Conclave.Lib
