import ConclaveFormal.Lib.BufferView

/-!
# Encoders

The types that a cursor reads and writes: numbers and byte strings of a fixed size, byte strings
that begin with their length, and structs of these.  A struct learns of its fields one after the
other as they are registered.  It keeps its size, and where some field is of variable size the sizes
of the fixed ones in front as a sum and the rest as a list.
-/

set_option autoImplicit false

namespace Conclave.Common

open Conclave.Lib

/-! ## Encoders of a fixed size -/

/-- `FixedBytes` and `Struct` are both a `ByteBufferEncoder`. -/
inductive FixedEncoder where
  | uInt16
  | int32
  | uInt32
  | int64
  | byteBufferEncoder (size : Nat)
  | reservedBytes (size : Nat)
  deriving DecidableEq

namespace FixedEncoder

def size : FixedEncoder → Nat
  | .uInt16 => 2
  | .int32 | .uInt32 => 4
  | .int64 => 8
  | .byteBufferEncoder size | .reservedBytes size => size

/-- An `Int`, a `Long`, or the bytes of a `ByteBuffer`. -/
abbrev Value : FixedEncoder → Type
  | .uInt16 | .int32 => BitVec 32
  | .uInt32 | .int64 => BitVec 64
  | .byteBufferEncoder _ | .reservedBytes _ => Bytes

def getNumber (order : ByteOrder) (width bits : Nat) : BufferReader (BitVec bits) := do
  let bytes ← BufferReader.take width
  return BitVec.ofNat bits (order.decode bytes)

def read (order : ByteOrder) : (type : FixedEncoder) → BufferReader type.Value
  | .uInt16 => getNumber order 2 32
  | .int32 => getNumber order 4 32
  | .uInt32 => getNumber order 4 64
  | .int64 => getNumber order 8 64
  | .byteBufferEncoder size | .reservedBytes size => BufferReader.getSlice size

/-- The bytes that `write` puts into the buffer. -/
def encode (order : ByteOrder) : (type : FixedEncoder) → type.Value → Except ViewError Bytes
  | .uInt16, value =>
      if 0 ≤ value.toInt ∧ value.toInt ≤ 65535 then .ok (order.encode 2 value.toNat)
      else .error (.reading .illegalArgument)
  | .int32, value => .ok (order.encode 4 value.toNat)
  | .uInt32, value =>
      if 0 ≤ value.toInt ∧ value.toInt ≤ 4294967295 then .ok (order.encode 4 value.toNat)
      else .error (.reading .illegalArgument)
  | .int64, value => .ok (order.encode 8 value.toNat)
  | .byteBufferEncoder size, value =>
      if value.length = size then .ok value else .error (.reading .illegalArgument)
  | .reservedBytes _, _ => .error .unsupportedOperation

def write (type : FixedEncoder) (view : View) (memory : Bytes) (value : type.Value) :
    Except ViewError Bytes := do
  let bytes ← type.encode view.order value
  view.put memory bytes

def Accepts : (type : FixedEncoder) → type.Value → Prop
  | .uInt16, value => 0 ≤ value.toInt ∧ value.toInt ≤ 65535
  | .int32, _ | .int64, _ => True
  | .uInt32, value => 0 ≤ value.toInt ∧ value.toInt ≤ 4294967295
  | .byteBufferEncoder size, value => value.length = size
  | .reservedBytes _, _ => False

theorem reads_getNumber (order : ByteOrder) {width bits : Nat} {value : BitVec bits}
    (fits : value.toNat < 256 ^ width) :
    Reads (getNumber order width bits) (order.encode width value.toNat) value := by
  intro rest
  have taken : BufferReader.take width (order.encode width value.toNat ++ rest) =
      .ok (order.encode width value.toNat, rest) :=
    BufferReader.take_eq_ok_iff.mpr ⟨order.encode_length width value.toNat, rfl⟩
  rw [getNumber, BufferReader.bind_ok taken, order.decode_encode fits, BitVec.ofNat_toNat,
    BitVec.setWidth_eq]
  rfl

/-- What is written has the size of the type and is read back. -/
theorem encode_of_accepts (order : ByteOrder) {type : FixedEncoder} {value : type.Value}
    (accepts : type.Accepts value) :
    ∃ bytes, type.encode order value = .ok bytes ∧ bytes.length = type.size ∧
      Reads (type.read order) bytes value := by
  cases type with
  | uInt16 =>
      have fits : value.toNat < 256 ^ 2 := by
        obtain ⟨nonneg, atMost⟩ : 0 ≤ value.toInt ∧ value.toInt ≤ 65535 := accepts
        rw [BitVec.toInt_eq_toNat_cond] at nonneg atMost
        split at nonneg <;> omega
      exact ⟨_, if_pos accepts, order.encode_length 2 value.toNat, reads_getNumber order fits⟩
  | int32 => exact ⟨_, rfl, order.encode_length 4 value.toNat, reads_getNumber order value.isLt⟩
  | uInt32 =>
      have fits : value.toNat < 256 ^ 4 := by
        obtain ⟨nonneg, atMost⟩ : 0 ≤ value.toInt ∧ value.toInt ≤ 4294967295 := accepts
        rw [BitVec.toInt_eq_toNat_cond] at nonneg atMost
        split at nonneg <;> omega
      exact ⟨_, if_pos accepts, order.encode_length 4 value.toNat, reads_getNumber order fits⟩
  | int64 => exact ⟨_, rfl, order.encode_length 8 value.toNat, reads_getNumber order value.isLt⟩
  | byteBufferEncoder size =>
      have sized : value.length = size := accepts
      refine ⟨value, if_pos sized, sized, ?_⟩
      rw [← sized]
      exact Reads.getSlice value
  | reservedBytes size => exact accepts.elim

theorem accepts_of_encode {order : ByteOrder} {type : FixedEncoder} {value : type.Value}
    {bytes : Bytes} (encoded : type.encode order value = .ok bytes) : type.Accepts value := by
  cases type with
  | int32 => trivial
  | int64 => trivial
  | reservedBytes size => cases encoded
  | uInt16 =>
      rw [encode] at encoded
      split_ifs at encoded with accepts
      exact accepts
  | uInt32 =>
      rw [encode] at encoded
      split_ifs at encoded with accepts
      exact accepts
  | byteBufferEncoder size =>
      rw [encode] at encoded
      split_ifs at encoded with accepts
      exact accepts

theorem reads_of_encode {order : ByteOrder} {type : FixedEncoder} {value : type.Value}
    {bytes : Bytes} (encoded : type.encode order value = .ok bytes) :
    bytes.length = type.size ∧ Reads (type.read order) bytes value := by
  obtain ⟨written, same, sized, reads⟩ := encode_of_accepts order (accepts_of_encode encoded)
  rw [encoded] at same
  cases same
  exact ⟨sized, reads⟩

end FixedEncoder

/-! ## Bytes behind their length -/

inductive VariableBytes where
  | uInt16VariableBytes
  | uInt32VariableBytes
  deriving DecidableEq

namespace VariableBytes

def minSize : VariableBytes → Nat
  | .uInt16VariableBytes => 2
  | .uInt32VariableBytes => 4

def getSizeRelative (order : ByteOrder) : VariableBytes → BufferReader Nat
  | .uInt16VariableBytes => do
      let bytes ← BufferReader.take 2
      return order.decode bytes
  | .uInt32VariableBytes => do
      let bytes ← BufferReader.take 4
      let size := wrap32 (order.decode bytes)
      if size < 0 then BufferReader.throw .illegalState else return size.toNat

/-- The position stays, and the index is checked instead. -/
def getSizeAbsolute (order : ByteOrder) (kind : VariableBytes) (remaining : Bytes) :
    Except ViewError Nat :=
  if remaining.length < kind.minSize then .error .indexOutOfBounds
  else
    match kind.getSizeRelative order remaining with
    | .ok (size, _) => .ok size
    | .error e => .error (.reading e)

end VariableBytes

/-! ## Encoders -/

/-- A list of encoders that is empty stands for the `null` that it is before its first element. -/
inductive Encoder where
  | fixed (type : FixedEncoder)
  | variableBytes (kind : VariableBytes)
  | variableStruct (startingFixedSize : Nat) (fieldEncoders : List Encoder) (structMinSize : Nat)

namespace Encoder

def minSize : Encoder → Nat
  | .fixed type => type.size
  | .variableBytes kind => kind.minSize
  | .variableStruct _ _ structMinSize => structMinSize

mutual

def skip (order : ByteOrder) : Encoder → BufferReader Unit
  | .fixed type => BufferReader.addPosition type.size
  | .variableBytes kind => do
      let size ← kind.getSizeRelative order
      BufferReader.addPosition size
  | .variableStruct startingFixedSize fieldEncoders _ => do
      BufferReader.addPosition startingFixedSize
      skipEach order fieldEncoders

def skipEach (order : ByteOrder) : List Encoder → BufferReader Unit
  | [] => pure ()
  | type :: types => do
      skip order type
      skipEach order types

end

/-- The size of the value at the front.  A variable struct takes its lengths little-endian, whatever
the order of the buffer. -/
def size (order : ByteOrder) (remaining : Bytes) : Encoder → Except ViewError Nat
  | .fixed type => .ok type.size
  | .variableBytes kind => (kind.getSizeAbsolute order remaining).map (kind.minSize + ·)
  | .variableStruct startingFixedSize fieldEncoders structMinSize =>
      let struct := variableStruct startingFixedSize fieldEncoders structMinSize
      match BufferReader.sizeOf (struct.skip .littleEndian) remaining with
      | .ok (size, _) => .ok size
      | .error e => .error (.reading e)

abbrev Value : Encoder → Type
  | .fixed type => type.Value
  | .variableBytes _ | .variableStruct _ _ _ => Bytes

def read (order : ByteOrder) : (type : Encoder) → BufferReader type.Value
  | .fixed type => type.read order
  | .variableBytes kind => do
      let size ← kind.getSizeRelative order
      BufferReader.getSlice size
  | .variableStruct startingFixedSize fieldEncoders structMinSize => do
      let struct := variableStruct startingFixedSize fieldEncoders structMinSize
      let size ← BufferReader.sizeOf (struct.skip .littleEndian)
      BufferReader.getSlice size

end Encoder

/-! ## Structs -/

structure StructField where
  type : FixedEncoder
  offset : Nat

def StructField.align (field : StructField) (_ : ByteOrder) : BufferReader Unit :=
  BufferReader.addPosition field.offset

/-- The fields of a `Struct` that has this size by now, and its size with them. -/
def registerFixed (structSize : Nat) : List FixedEncoder → List StructField × Nat
  | [] => ([], structSize)
  | type :: types =>
      let registered := registerFixed (structSize + type.size) types
      (⟨type, structSize⟩ :: registered.1, registered.2)

structure VariableStructField where
  type : Encoder
  fixedOffset : Nat
  encodersIndex : Int

structure VariableStruct where
  startingFixedSize : Nat
  fieldEncoders : List Encoder
  structMinSize : Nat

namespace VariableStruct

def new : VariableStruct := ⟨0, [], 0⟩

def encoder (struct : VariableStruct) : Encoder :=
  .variableStruct struct.startingFixedSize struct.fieldEncoders struct.structMinSize

def field (struct : VariableStruct) (type : Encoder) : VariableStructField × VariableStruct :=
  (⟨type, struct.startingFixedSize,
      if struct.fieldEncoders = [] then -1 else struct.fieldEncoders.length⟩,
    match type, struct.fieldEncoders with
    | .fixed fixedType, [] => { struct with
        startingFixedSize := struct.startingFixedSize + fixedType.size
        structMinSize := struct.structMinSize + type.minSize }
    | _, _ => { struct with
        fieldEncoders := struct.fieldEncoders ++ [type]
        structMinSize := struct.structMinSize + type.minSize })

def register (struct : VariableStruct) : List Encoder → List VariableStructField × VariableStruct
  | [] => ([], struct)
  | type :: types =>
      let (first, struct) := struct.field type
      let registered := struct.register types
      (first :: registered.1, registered.2)

/-- By the time a field is aligned to, its struct has all of its fields. -/
def align (struct : VariableStruct) (field : VariableStructField) (order : ByteOrder) :
    BufferReader Unit := do
  BufferReader.addPosition field.fixedOffset
  Encoder.skipEach order (struct.fieldEncoders.take field.encodersIndex.toNat)

end VariableStruct

end Conclave.Common
