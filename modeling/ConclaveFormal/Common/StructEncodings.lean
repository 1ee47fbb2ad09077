import ConclaveFormal.Common.StructTypes

/-!
# Encodings of structs

To skip a struct is to skip its fields, and what is skipped is a well-formed encoding.  A variable
struct measures itself in little-endian order and skips in the order of the buffer.
-/

set_option autoImplicit false

namespace Conclave.Common

open Conclave.Lib BufferReader

/-! ## What is skipped -/

theorem VariableBytes.getSizeRelative_eq_ok_iff {order : ByteOrder} {kind : VariableBytes}
    {input rest : Bytes} {size : Nat} :
    kind.getSizeRelative order input = .ok (size, rest) ↔
      ∃ length : Bytes, length.length = kind.minSize ∧ input = length ++ rest ∧
        order.decode length = size ∧ size < 2 ^ 31 := by
  cases kind with
  | uInt16VariableBytes =>
      rw [getSizeRelative, bind_eq_ok_iff]
      constructor
      · rintro ⟨length, middle, taken, returned⟩
        obtain ⟨two, rfl⟩ := take_eq_ok_iff.mp taken
        cases returned
        have small := order.decode_lt length
        rw [two] at small
        exact ⟨length, two, rfl, rfl, by omega⟩
      · rintro ⟨length, two, rfl, rfl, -⟩
        exact ⟨length, rest, take_eq_ok_iff.mpr ⟨two, rfl⟩, rfl⟩
  | uInt32VariableBytes =>
      rw [getSizeRelative, bind_eq_ok_iff]
      constructor
      · rintro ⟨length, middle, taken, returned⟩
        obtain ⟨four, rfl⟩ := take_eq_ok_iff.mp taken
        have small := order.decode_lt length
        rw [four] at small
        by_cases fits : order.decode length < 2 ^ 31
        · have signed : wrap32 (order.decode length) = order.decode length :=
            wrap32_of_range (by omega) (by omega)
          rw [signed, if_neg (by omega), Int.toNat_natCast] at returned
          cases returned
          exact ⟨length, four, rfl, rfl, fits⟩
        · have negative : wrap32 (order.decode length) < 0 := by
            rw [wrap32, Int.bmod_def]
            split <;> omega
          rw [if_pos negative] at returned
          cases returned
      · rintro ⟨length, four, rfl, rfl, fits⟩
        have signed : wrap32 (order.decode length) = order.decode length :=
          wrap32_of_range (by omega) (by omega)
        refine ⟨length, rest, take_eq_ok_iff.mpr ⟨four, rfl⟩, ?_⟩
        rw [signed, if_neg (by omega), Int.toNat_natCast]
        rfl

theorem VariableBytes.skip_eq_ok_iff {order : ByteOrder} {kind : VariableBytes}
    {input rest : Bytes} :
    (Encoder.variableBytes kind).skip order input = .ok ((), rest) ↔
      ∃ bytes, input = bytes ++ rest ∧ kind.Encodes order bytes := by
  rw [Encoder.skip, bind_eq_ok_iff]
  constructor
  · rintro ⟨size, middle, measured, moved⟩
    obtain ⟨length, sized, rfl, decoded, small⟩ := getSizeRelative_eq_ok_iff.mp measured
    obtain ⟨payload, rfl, rfl⟩ := addPosition_eq_ok_iff.mp moved
    exact ⟨length ++ payload, (List.append_assoc _ _ _).symm, length, payload, sized, decoded,
      small, rfl⟩
  · rintro ⟨bytes, rfl, length, payload, sized, decoded, small, rfl⟩
    refine ⟨payload.length, payload ++ rest, ?_, addPosition_eq_ok_iff.mpr ⟨payload, rfl, rfl⟩⟩
    exact getSizeRelative_eq_ok_iff.mpr ⟨length, sized, List.append_assoc _ _ _, decoded, small⟩

theorem FieldType.skip_variableStruct (order : ByteOrder) (fields : List FieldType) :
    (FieldType.variableStruct fields).encoder.skip order =
      Encoder.skipEach order (FieldType.encoders fields) := by
  rw [FieldType.encoder]
  exact VariableStruct.skip_register (VariableStruct.skip_new order) (FieldType.encoders fields)

mutual

theorem FieldType.skip_eq_ok_iff (order : ByteOrder) :
    ∀ (type : FieldType) (input rest : Bytes), type.encoder.skip order input = .ok ((), rest) ↔
      ∃ bytes, input = bytes ++ rest ∧ type.Encodes order bytes
  | .fixed type, input, rest => by
      rw [FieldType.encoder, Encoder.skip, addPosition_eq_ok_iff, FixedType.encoder_size]
      constructor
      · rintro ⟨bytes, sized, rfl⟩
        exact ⟨bytes, rfl, by rwa [FieldType.Encodes]⟩
      · rintro ⟨bytes, rfl, encodes⟩
        rw [FieldType.Encodes] at encodes
        exact ⟨bytes, encodes, rfl⟩
  | .variableBytes kind, input, rest => by
      rw [FieldType.encoder, VariableBytes.skip_eq_ok_iff]
      simp only [FieldType.Encodes]
  | .variableStruct fields, input, rest => by
      rw [FieldType.skip_variableStruct, FieldType.skipEach_eq_ok_iff order fields input rest]
      simp only [FieldType.Encodes]

theorem FieldType.skipEach_eq_ok_iff (order : ByteOrder) :
    ∀ (types : List FieldType) (input rest : Bytes),
      Encoder.skipEach order (FieldType.encoders types) input = .ok ((), rest) ↔
        ∃ bytes, input = bytes ++ rest ∧ FieldType.EncodeEach order types bytes
  | [], input, rest => by
      rw [FieldType.encoders, Encoder.skipEach]
      constructor
      · intro returned
        cases returned
        exact ⟨[], rfl, by rw [FieldType.EncodeEach]⟩
      · rintro ⟨bytes, rfl, encode⟩
        rw [FieldType.EncodeEach] at encode
        rw [encode]
        rfl
  | type :: types, input, rest => by
      rw [FieldType.encoders, Encoder.skipEach, bind_eq_ok_iff]
      constructor
      · rintro ⟨⟨⟩, middle, skipped, later⟩
        obtain ⟨first, rfl, encodes⟩ :=
          (FieldType.skip_eq_ok_iff order type input middle).mp skipped
        obtain ⟨others, rfl, encode⟩ :=
          (FieldType.skipEach_eq_ok_iff order types middle rest).mp later
        refine ⟨first ++ others, (List.append_assoc _ _ _).symm, ?_⟩
        rw [FieldType.EncodeEach]
        exact ⟨first, others, rfl, encodes, encode⟩
      · rintro ⟨bytes, rfl, encode⟩
        rw [FieldType.EncodeEach] at encode
        obtain ⟨first, others, rfl, encodes, encode⟩ := encode
        refine ⟨(), others ++ rest, ?_, ?_⟩
        · exact (FieldType.skip_eq_ok_iff order type _ _).mpr
            ⟨first, List.append_assoc _ _ _, encodes⟩
        · exact (FieldType.skipEach_eq_ok_iff order types _ _).mpr ⟨others, rfl, encode⟩

end

/-! ## What is measured -/

theorem VariableBytes.size_of_encodes {order : ByteOrder} {kind : VariableBytes} {bytes : Bytes}
    (encodes : kind.Encodes order bytes) (rest : Bytes) :
    (Encoder.variableBytes kind).size order (bytes ++ rest) = .ok bytes.length := by
  obtain ⟨length, payload, sized, decoded, small, rfl⟩ := encodes
  have measured : kind.getSizeRelative order (length ++ payload ++ rest) =
      .ok (payload.length, payload ++ rest) :=
    getSizeRelative_eq_ok_iff.mpr ⟨length, sized, List.append_assoc _ _ _, decoded, small⟩
  have enough : ¬(length ++ payload ++ rest).length < kind.minSize := by
    rw [List.append_assoc, List.length_append, sized]
    omega
  rw [Encoder.size, getSizeAbsolute, if_neg enough, measured, List.length_append, sized]
  rfl

theorem FieldType.size_variableStruct {fields : List FieldType} {bytes : Bytes} (order : ByteOrder)
    (encodes : (FieldType.variableStruct fields).Encodes .littleEndian bytes) (rest : Bytes) :
    (FieldType.variableStruct fields).encoder.size order (bytes ++ rest) = .ok bytes.length := by
  have skips : Reads ((FieldType.variableStruct fields).encoder.skip .littleEndian) bytes () :=
    fun rest => (FieldType.skip_eq_ok_iff _ _ _ _).mpr ⟨bytes, rfl, encodes⟩
  have measured := Measures.sizeOf skips rest
  rw [FieldType.encoder, VariableStruct.encoder] at measured ⊢
  rw [Encoder.size, measured]

/-- In a buffer in little-endian order every type measures its encodings. -/
theorem FieldType.size_of_encodes {type : FieldType} {bytes : Bytes}
    (encodes : type.Encodes .littleEndian bytes) (rest : Bytes) :
    type.encoder.size .littleEndian (bytes ++ rest) = .ok bytes.length := by
  cases type with
  | fixed type =>
      rw [FieldType.Encodes] at encodes
      rw [FieldType.encoder, Encoder.size, FixedType.encoder_size, encodes]
  | variableBytes kind =>
      rw [FieldType.Encodes] at encodes
      rw [FieldType.encoder]
      exact VariableBytes.size_of_encodes encodes rest
  | variableStruct fields => exact FieldType.size_variableStruct _ encodes rest

/-! ## The smallest encoding -/

namespace VariableStruct

theorem structMinSize_field (struct : VariableStruct) (type : Encoder) :
    (struct.field type).2.structMinSize = struct.structMinSize + type.minSize := by
  cases type with
  | fixed type =>
      cases encoders : struct.fieldEncoders with
      | nil => simp only [field, encoders]
      | cons first others => simp only [field, encoders]
  | variableBytes kind => rfl
  | variableStruct startingFixedSize fieldEncoders structMinSize => rfl

theorem structMinSize_register (struct : VariableStruct) (types : List Encoder) :
    (struct.register types).2.structMinSize =
      struct.structMinSize + (types.map Encoder.minSize).sum := by
  induction types generalizing struct with
  | nil => rfl
  | cons type types ih =>
      rw [List.map_cons, List.sum_cons, ← Nat.add_assoc, ← structMinSize_field]
      exact ih (struct.field type).2

end VariableStruct

theorem FieldType.minSize_variableStruct (fields : List FieldType) :
    (FieldType.variableStruct fields).encoder.minSize =
      ((FieldType.encoders fields).map Encoder.minSize).sum := by
  rw [FieldType.encoder, VariableStruct.encoder, Encoder.minSize,
    VariableStruct.structMinSize_register, VariableStruct.new, Nat.zero_add]

mutual

theorem FieldType.minSize_le (order : ByteOrder) : ∀ (type : FieldType) (bytes : Bytes),
    type.Encodes order bytes → type.encoder.minSize ≤ bytes.length
  | .fixed type, bytes, encodes => by
      rw [FieldType.Encodes] at encodes
      rw [FieldType.encoder, Encoder.minSize, FixedType.encoder_size, encodes]
  | .variableBytes kind, bytes, encodes => by
      rw [FieldType.Encodes] at encodes
      obtain ⟨length, payload, sized, -, -, rfl⟩ := encodes
      rw [FieldType.encoder, Encoder.minSize, List.length_append, sized]
      exact Nat.le_add_right _ _
  | .variableStruct fields, bytes, encodes => by
      rw [FieldType.Encodes] at encodes
      rw [FieldType.minSize_variableStruct]
      exact FieldType.minSizes_le order fields bytes encodes

theorem FieldType.minSizes_le (order : ByteOrder) : ∀ (types : List FieldType) (bytes : Bytes),
    FieldType.EncodeEach order types bytes →
      ((FieldType.encoders types).map Encoder.minSize).sum ≤ bytes.length
  | [], bytes, _ => by
      rw [FieldType.encoders, List.map_nil, List.sum_nil]
      exact Nat.zero_le _
  | type :: types, bytes, encode => by
      rw [FieldType.EncodeEach] at encode
      obtain ⟨first, rest, rfl, encodes, encode⟩ := encode
      rw [FieldType.encoders, List.map_cons, List.sum_cons, List.length_append]
      exact Nat.add_le_add (FieldType.minSize_le order type first encodes)
        (FieldType.minSizes_le order types rest encode)

end

theorem decode_zeros (order : ByteOrder) (width : Nat) :
    order.decode (List.replicate width 0) = 0 := by
  have zeros : ofBigEndian (List.replicate width 0) = 0 := by
    induction width with
    | zero => rfl
    | succ width ih =>
        rw [List.replicate_succ, ofBigEndian_cons, ih]
        simp
  cases order with
  | bigEndian => exact zeros
  | littleEndian =>
      rw [ByteOrder.decode, ofLittleEndian, List.reverse_replicate]
      exact zeros

mutual

/-- The smallest encoding has nothing but zeros, so that its lengths are zero. -/
theorem FieldType.encodes_zeros (order : ByteOrder) : ∀ type : FieldType,
    type.Encodes order (List.replicate type.encoder.minSize 0)
  | .fixed type => by
      rw [FieldType.Encodes, List.length_replicate, FieldType.encoder, Encoder.minSize,
        FixedType.encoder_size]
  | .variableBytes kind => by
      rw [FieldType.Encodes, FieldType.encoder, Encoder.minSize]
      exact ⟨List.replicate kind.minSize 0, [], List.length_replicate, decode_zeros order _,
        by decide, (List.append_nil _).symm⟩
  | .variableStruct fields => by
      rw [FieldType.Encodes, FieldType.minSize_variableStruct]
      exact FieldType.encodeEach_zeros order fields

theorem FieldType.encodeEach_zeros (order : ByteOrder) : ∀ types : List FieldType,
    FieldType.EncodeEach order types
      (List.replicate ((FieldType.encoders types).map Encoder.minSize).sum 0)
  | [] => by rw [FieldType.encoders, List.map_nil, List.sum_nil, FieldType.EncodeEach]; rfl
  | type :: types => by
      rw [FieldType.EncodeEach, FieldType.encoders, List.map_cons, List.sum_cons]
      exact ⟨_, _, List.replicate_add .., FieldType.encodes_zeros order type,
        FieldType.encodeEach_zeros order types⟩

end

end Conclave.Common
