import ConclaveFormal.Lib.Bytes

/-!
# Data input and output streams

The subset of the `java.io.DataInput` and `java.io.DataOutput` formats that
length-prefixed headers are built from.  A string is a list of UTF-16 code
units, so that unpaired surrogates and the zero character are ordinary values;
its encoding is modified UTF-8.  Every reader consumes a prefix of its input,
and each `read_write` lemma states that reading an encoding back leaves the
bytes behind it untouched.
-/

set_option autoImplicit false

namespace Conclave.Lib

abbrev JString := List UInt16

inductive DataError where
  | eof
  | utfDataFormat
  deriving DecidableEq, Repr

abbrev DataInput (α : Type) := Bytes → Except DataError (α × Bytes)

/-! ## Fixed-width fields -/

def readFully (length : Nat) : DataInput Bytes := fun input =>
  if length ≤ input.length then .ok (input.take length, input.drop length) else .error .eof

def readUnsigned (width : Nat) : DataInput Nat := fun input =>
  (readFully width input).map fun (field, rest) => (ofBigEndian field, rest)

def readLong : DataInput (BitVec 64) := fun input =>
  (readUnsigned 8 input).map fun (value, rest) => (BitVec.ofNat 64 value, rest)

theorem readFully_append (field rest : Bytes) :
    readFully field.length (field ++ rest) = .ok (field, rest) := by
  simp [readFully]

theorem readUnsigned_bigEndian (width value : Nat) (rest : Bytes)
    (fits : value < 256 ^ width) :
    readUnsigned width (bigEndian width value ++ rest) = .ok (value, rest) := by
  have field := readFully_append (bigEndian width value) rest
  rw [bigEndian_length] at field
  simp [readUnsigned, field, Except.map, ofBigEndian_bigEndian_of_lt width value fits]

theorem readLong_bigEndian (value : BitVec 64) (rest : Bytes) :
    readLong (bigEndian 8 value.toNat ++ rest) = .ok (value, rest) := by
  have fits : value.toNat < 256 ^ 8 := value.isLt
  simp [readLong, readUnsigned_bigEndian 8 value.toNat rest fits, Except.map]

/-! ## Modified UTF-8 -/

/-- One code unit: zero and the units up to `0x7FF` take two bytes, the other
units below `0x80` one and the rest three. -/
def encodeUnit (unit : UInt16) : Bytes :=
  let n := unit.toNat
  if 1 ≤ n ∧ n ≤ 0x7F then [UInt8.ofNat n]
  else if n ≤ 0x7FF then [UInt8.ofNat (0xC0 + n / 64), UInt8.ofNat (0x80 + n % 64)]
  else [UInt8.ofNat (0xE0 + n / 4096), UInt8.ofNat (0x80 + n / 64 % 64),
    UInt8.ofNat (0x80 + n % 64)]

def encodeUtf (text : JString) : Bytes := text.flatMap encodeUnit

def isContinuation (byte : UInt8) : Bool := byte.toNat / 64 == 2

/-- The decoding loop of `readUTF`: the high nibble of the first byte selects
the width, and the continuation bytes are checked for their `10` prefix. -/
def decodeUtf : Bytes → Option JString
  | [] => some []
  | first :: rest =>
      let high := first.toNat / 16
      if high < 8 then
        (decodeUtf rest).map (UInt16.ofNat first.toNat :: ·)
      else if high = 12 ∨ high = 13 then
        match rest with
        | second :: rest =>
            if isContinuation second then
              (decodeUtf rest).map
                (UInt16.ofNat (first.toNat % 32 * 64 + second.toNat % 64) :: ·)
            else none
        | [] => none
      else if high = 14 then
        match rest with
        | second :: third :: rest =>
            if isContinuation second && isContinuation third then
              (decodeUtf rest).map
                (UInt16.ofNat (first.toNat % 16 * 4096 + second.toNat % 64 * 64 +
                  third.toNat % 64) :: ·)
            else none
        | _ => none
      else none

theorem decodeUtf_one (first : UInt8) (rest : Bytes) (narrow : first.toNat / 16 < 8) :
    decodeUtf (first :: rest) = (decodeUtf rest).map (UInt16.ofNat first.toNat :: ·) := by
  rw [decodeUtf.eq_def]
  simp only [narrow, if_true]

theorem decodeUtf_two (first second : UInt8) (rest : Bytes)
    (high : first.toNat / 16 = 12 ∨ first.toNat / 16 = 13) (tail : second.toNat / 64 = 2) :
    decodeUtf (first :: second :: rest) =
      (decodeUtf rest).map
        (UInt16.ofNat (first.toNat % 32 * 64 + second.toNat % 64) :: ·) := by
  have wide : ¬ first.toNat / 16 < 8 := by omega
  rw [decodeUtf.eq_def]
  simp only [wide, high, isContinuation, tail, if_true, if_false, beq_self_eq_true]

theorem decodeUtf_three (first second third : UInt8) (rest : Bytes)
    (high : first.toNat / 16 = 14) (middle : second.toNat / 64 = 2)
    (last : third.toNat / 64 = 2) :
    decodeUtf (first :: second :: third :: rest) =
      (decodeUtf rest).map
        (UInt16.ofNat (first.toNat % 16 * 4096 + second.toNat % 64 * 64 +
          third.toNat % 64) :: ·) := by
  have wide : ¬ first.toNat / 16 < 8 := by omega
  have notTwo : ¬ (first.toNat / 16 = 12 ∨ first.toNat / 16 = 13) := by omega
  rw [decodeUtf.eq_def]
  simp only
  rw [if_neg wide, if_neg notTwo, if_pos high]
  simp only [isContinuation, middle, last, if_true, beq_self_eq_true, Bool.and_self]

private theorem toNat_ofNat_byte {value : Nat} (fits : value < 256) :
    (UInt8.ofNat value).toNat = value := by
  simp
  omega

theorem decodeUtf_encodeUnit (unit : UInt16) (rest : Bytes) :
    decodeUtf (encodeUnit unit ++ rest) = (decodeUtf rest).map (unit :: ·) := by
  have bound := unit.toNat_lt
  unfold encodeUnit
  simp only
  split
  · have byte : (UInt8.ofNat unit.toNat).toNat = unit.toNat :=
      toNat_ofNat_byte (by omega)
    rw [List.cons_append, List.nil_append, decodeUtf_one _ _ (by omega), byte,
      UInt16.ofNat_toNat]
  · split
    · have first : (UInt8.ofNat (0xC0 + unit.toNat / 64)).toNat = 0xC0 + unit.toNat / 64 :=
        toNat_ofNat_byte (by omega)
      have second : (UInt8.ofNat (0x80 + unit.toNat % 64)).toNat = 0x80 + unit.toNat % 64 :=
        toNat_ofNat_byte (by omega)
      have value : (0xC0 + unit.toNat / 64) % 32 * 64 + (0x80 + unit.toNat % 64) % 64 =
          unit.toNat := by omega
      rw [List.cons_append, List.cons_append, List.nil_append,
        decodeUtf_two _ _ _ (by omega) (by omega), first, second, value, UInt16.ofNat_toNat]
    · have first : (UInt8.ofNat (0xE0 + unit.toNat / 4096)).toNat =
          0xE0 + unit.toNat / 4096 := toNat_ofNat_byte (by omega)
      have second : (UInt8.ofNat (0x80 + unit.toNat / 64 % 64)).toNat =
          0x80 + unit.toNat / 64 % 64 := toNat_ofNat_byte (by omega)
      have third : (UInt8.ofNat (0x80 + unit.toNat % 64)).toNat = 0x80 + unit.toNat % 64 :=
        toNat_ofNat_byte (by omega)
      have value : (0xE0 + unit.toNat / 4096) % 16 * 4096 +
          (0x80 + unit.toNat / 64 % 64) % 64 * 64 + (0x80 + unit.toNat % 64) % 64 =
          unit.toNat := by omega
      rw [List.cons_append, List.cons_append, List.cons_append, List.nil_append,
        decodeUtf_three _ _ _ _ (by omega) (by omega) (by omega), first, second, third, value,
        UInt16.ofNat_toNat]

theorem decodeUtf_encodeUtf (text : JString) : decodeUtf (encodeUtf text) = some text := by
  induction text with
  | nil => rfl
  | cons unit rest ih =>
      have split : encodeUtf (unit :: rest) = encodeUnit unit ++ encodeUtf rest := rfl
      rw [split, decodeUtf_encodeUnit, ih]
      rfl

def writeUTF (text : JString) : Except DataError Bytes :=
  let encoded := encodeUtf text
  if encoded.length > 65535 then .error .utfDataFormat
  else .ok (bigEndian 2 encoded.length ++ encoded)

def readUTF : DataInput JString := fun input =>
  match readUnsigned 2 input with
  | .error e => .error e
  | .ok (length, rest) =>
      match readFully length rest with
      | .error e => .error e
      | .ok (encoded, rest) =>
          match decodeUtf encoded with
          | some text => .ok (text, rest)
          | none => .error .utfDataFormat

theorem readUTF_writeUTF (text : JString) (bytes rest : Bytes)
    (written : writeUTF text = .ok bytes) : readUTF (bytes ++ rest) = .ok (text, rest) := by
  unfold writeUTF at written
  simp only at written
  split at written
  · cases written
  · rename_i fits
    cases written
    have prefixRead := readUnsigned_bigEndian 2 (encodeUtf text).length
      (encodeUtf text ++ rest) (by norm_num; omega)
    rw [List.append_assoc]
    simp [readUTF, prefixRead, readFully_append, decodeUtf_encodeUtf]

theorem writeUTF_eq_ok {text : JString} {bytes : Bytes} (written : writeUTF text = .ok bytes) :
    bytes = bigEndian 2 (encodeUtf text).length ++ encodeUtf text := by
  unfold writeUTF at written
  simp only at written
  split at written
  · cases written
  · cases written
    rfl

theorem writeUTF_length {text : JString} {bytes : Bytes} (written : writeUTF text = .ok bytes) :
    bytes.length = 2 + (encodeUtf text).length := by
  rw [writeUTF_eq_ok written, List.length_append, bigEndian_length]

end Conclave.Lib
