import ConclaveFormal.Common.Encoder

/-!
# The types of structs

A struct is written down as the list of its fields, some of which may be structs.  From that come
the encoder that the registration of the fields ends with, and what a well-formed encoding is: the
encodings of the fields, one behind the other.  The encoder skips exactly the well-formed encodings.
-/

set_option autoImplicit false

namespace Conclave.Common

open Conclave.Lib BufferReader

inductive FixedType where
  | uInt16
  | int32
  | uInt32
  | int64
  | fixedBytes (size : Nat)
  | reservedBytes (size : Nat)
  | struct (fields : List FixedType)

inductive FieldType where
  | fixed (type : FixedType)
  | variableBytes (kind : VariableBytes)
  | variableStruct (fields : List FieldType)

/-! ## Their encoders -/

mutual

def FixedType.encoder : FixedType → FixedEncoder
  | .uInt16 => .uInt16
  | .int32 => .int32
  | .uInt32 => .uInt32
  | .int64 => .int64
  | .fixedBytes size => .byteBufferEncoder size
  | .reservedBytes size => .reservedBytes size
  | .struct fields => .byteBufferEncoder (registerFixed 0 (FixedType.encoders fields)).2

def FixedType.encoders : List FixedType → List FixedEncoder
  | [] => []
  | type :: types => type.encoder :: FixedType.encoders types

end

mutual

def FieldType.encoder : FieldType → Encoder
  | .fixed type => .fixed type.encoder
  | .variableBytes kind => .variableBytes kind
  | .variableStruct fields => (VariableStruct.new.register (FieldType.encoders fields)).2.encoder

def FieldType.encoders : List FieldType → List Encoder
  | [] => []
  | type :: types => type.encoder :: FieldType.encoders types

end

/-! ## Their encodings -/

mutual

def FixedType.width : FixedType → Nat
  | .uInt16 => 2
  | .int32 | .uInt32 => 4
  | .int64 => 8
  | .fixedBytes size | .reservedBytes size => size
  | .struct fields => FixedType.totalWidth fields

def FixedType.totalWidth : List FixedType → Nat
  | [] => 0
  | type :: types => type.width + FixedType.totalWidth types

end

/-- The bytes that hold the length are followed by as many bytes as they say. -/
def VariableBytes.Encodes (order : ByteOrder) (kind : VariableBytes) (bytes : Bytes) : Prop :=
  ∃ length payload : Bytes, length.length = kind.minSize ∧ order.decode length = payload.length ∧
    payload.length < 2 ^ 31 ∧ bytes = length ++ payload

mutual

def FieldType.Encodes (order : ByteOrder) : FieldType → Bytes → Prop
  | .fixed type, bytes => bytes.length = type.width
  | .variableBytes kind, bytes => kind.Encodes order bytes
  | .variableStruct fields, bytes => FieldType.EncodeEach order fields bytes

def FieldType.EncodeEach (order : ByteOrder) : List FieldType → Bytes → Prop
  | [], bytes => bytes = []
  | type :: types, bytes =>
      ∃ first rest, bytes = first ++ rest ∧ type.Encodes order first ∧
        FieldType.EncodeEach order types rest

end

theorem FixedType.encoders_eq_map (types : List FixedType) :
    FixedType.encoders types = types.map FixedType.encoder := by
  induction types with
  | nil => rw [FixedType.encoders, List.map_nil]
  | cons type types ih => rw [FixedType.encoders, List.map_cons, ih]

theorem FieldType.encoders_eq_map (types : List FieldType) :
    FieldType.encoders types = types.map FieldType.encoder := by
  induction types with
  | nil => rw [FieldType.encoders, List.map_nil]
  | cons type types ih => rw [FieldType.encoders, List.map_cons, ih]

theorem FixedType.totalWidth_eq_sum (types : List FixedType) :
    FixedType.totalWidth types = (types.map FixedType.width).sum := by
  induction types with
  | nil => rw [FixedType.totalWidth, List.map_nil, List.sum_nil]
  | cons type types ih => rw [FixedType.totalWidth, List.map_cons, List.sum_cons, ih]

/-- The parts of an encoding that belong to the fields. -/
theorem FieldType.encodeEach_iff {order : ByteOrder} {types : List FieldType} {bytes : Bytes} :
    FieldType.EncodeEach order types bytes ↔
      ∃ parts : List Bytes, List.Forall₂ (FieldType.Encodes order) types parts ∧
        bytes = parts.flatten := by
  induction types generalizing bytes with
  | nil =>
      rw [FieldType.EncodeEach]
      constructor
      · rintro rfl
        exact ⟨[], .nil, rfl⟩
      · rintro ⟨parts, encode, rfl⟩
        cases encode
        rfl
  | cons type types ih =>
      rw [FieldType.EncodeEach]
      constructor
      · rintro ⟨first, rest, rfl, encodes, later⟩
        obtain ⟨parts, encode, rfl⟩ := ih.mp later
        exact ⟨first :: parts, .cons encodes encode, rfl⟩
      · rintro ⟨parts, encode, rfl⟩
        cases encode with
        | cons encodes encode =>
            exact ⟨_, _, rfl, encodes, ih.mpr ⟨_, encode, rfl⟩⟩

/-! ## Fields of a fixed size -/

theorem registerFixed_size (structSize : Nat) (types : List FixedEncoder) :
    (registerFixed structSize types).2 = structSize + (types.map FixedEncoder.size).sum := by
  induction types generalizing structSize with
  | nil => rfl
  | cons type types ih =>
      rw [registerFixed, List.map_cons, List.sum_cons, ← Nat.add_assoc]
      exact ih (structSize + type.size)

theorem registerFixed_length (structSize : Nat) (types : List FixedEncoder) :
    (registerFixed structSize types).1.length = types.length := by
  induction types generalizing structSize with
  | nil => rfl
  | cons type types ih =>
      rw [registerFixed, List.length_cons, List.length_cons]
      exact congrArg (· + 1) (ih (structSize + type.size))

theorem registerFixed_getElem (structSize : Nat) (types : List FixedEncoder) {index : Nat}
    (field : index < (registerFixed structSize types).1.length) :
    (registerFixed structSize types).1[index].offset =
      structSize + ((types.take index).map FixedEncoder.size).sum := by
  induction types generalizing structSize index with
  | nil => cases field
  | cons type types ih =>
      cases index with
      | zero => rfl
      | succ index =>
          have later := ih (structSize + type.size) (Nat.lt_of_succ_lt_succ field)
          rw [List.take_succ_cons, List.map_cons, List.sum_cons, ← Nat.add_assoc]
          exact later

mutual

theorem FixedType.encoder_size : ∀ type : FixedType, type.encoder.size = type.width
  | .uInt16 | .int32 | .uInt32 | .int64 | .fixedBytes _ | .reservedBytes _ => by
      rw [FixedType.encoder, FixedType.width, FixedEncoder.size]
  | .struct fields => by
      rw [FixedType.encoder, FixedType.width, FixedEncoder.size, registerFixed_size, Nat.zero_add]
      exact FixedType.encoders_size fields

theorem FixedType.encoders_size : ∀ types : List FixedType,
    ((FixedType.encoders types).map FixedEncoder.size).sum = FixedType.totalWidth types
  | [] => by rw [FixedType.encoders, FixedType.totalWidth, List.map_nil, List.sum_nil]
  | type :: types => by
      rw [FixedType.encoders, FixedType.totalWidth, List.map_cons, List.sum_cons,
        FixedType.encoder_size type, FixedType.encoders_size types]

end

/-! ## Skipping -/

theorem Encoder.skipEach_append (order : ByteOrder) (first second : List Encoder) :
    Encoder.skipEach order (first ++ second) =
      (Encoder.skipEach order first >>= fun _ => Encoder.skipEach order second) := by
  induction first with
  | nil => rw [List.nil_append, Encoder.skipEach, pure_bind]
  | cons type types ih => rw [List.cons_append, Encoder.skipEach, ih, Encoder.skipEach, bind_assoc]

theorem Encoder.skipEach_singleton (order : ByteOrder) (type : Encoder) :
    Encoder.skipEach order [type] = type.skip order := by
  rw [Encoder.skipEach, Encoder.skipEach]
  exact bind_pure (type.skip order)

theorem Encoder.skipEach_fixed (order : ByteOrder) (types : List FixedEncoder) :
    Encoder.skipEach order (types.map Encoder.fixed) =
      addPosition (types.map FixedEncoder.size).sum := by
  induction types with
  | nil =>
      rw [List.map_nil, Encoder.skipEach, List.map_nil, List.sum_nil, addPosition_zero]
  | cons type types ih =>
      rw [List.map_cons, Encoder.skipEach, Encoder.skip, ih, List.map_cons, List.sum_cons,
        addPosition_add]

namespace VariableStruct

theorem skip_encoder (struct : VariableStruct) (order : ByteOrder) :
    struct.encoder.skip order =
      (addPosition struct.startingFixedSize >>= fun _ =>
        Encoder.skipEach order struct.fieldEncoders) := by
  rw [encoder, Encoder.skip]

/-- The struct skips what its fields skip, with one more field too. -/
theorem skip_field {struct : VariableStruct} {order : ByteOrder} {types : List Encoder}
    (skips : struct.encoder.skip order = Encoder.skipEach order types) (type : Encoder) :
    (struct.field type).2.encoder.skip order = Encoder.skipEach order (types ++ [type]) := by
  rw [Encoder.skipEach_append, ← skips, Encoder.skipEach_singleton]
  have listed : ({ struct with
        fieldEncoders := struct.fieldEncoders ++ [type]
        structMinSize := struct.structMinSize + type.minSize }).encoder.skip order =
      (struct.encoder.skip order >>= fun _ => type.skip order) := by
    rw [skip_encoder, skip_encoder, Encoder.skipEach_append, Encoder.skipEach_singleton, bind_assoc]
  cases type with
  | fixed type =>
      cases encoders : struct.fieldEncoders with
      | nil =>
          simp only [field, encoders]
          rw [skip_encoder, skip_encoder, encoders, Encoder.skipEach, addPosition_add, bind_pure,
            bind_pure, Encoder.skip]
      | cons first others =>
          simp only [field, encoders]
          rw [← encoders]
          exact listed
  | variableBytes kind => exact listed
  | variableStruct startingFixedSize fieldEncoders structMinSize => exact listed

theorem fieldEncoders_field (struct : VariableStruct) (type : Encoder) :
    struct.fieldEncoders <+: (struct.field type).2.fieldEncoders := by
  cases type with
  | fixed type =>
      cases encoders : struct.fieldEncoders with
      | nil => exact List.nil_prefix
      | cons first others =>
          simp only [field, encoders]
          exact List.prefix_append _ _
  | variableBytes kind => exact List.prefix_append _ _
  | variableStruct startingFixedSize fieldEncoders structMinSize => exact List.prefix_append _ _

theorem fieldEncoders_register (struct : VariableStruct) (types : List Encoder) :
    struct.fieldEncoders <+: (struct.register types).2.fieldEncoders := by
  induction types generalizing struct with
  | nil => exact List.prefix_rfl
  | cons type types ih =>
      exact (struct.fieldEncoders_field type).trans (ih (struct.field type).2)

theorem skip_register {struct : VariableStruct} {order : ByteOrder} {done : List Encoder}
    (skips : struct.encoder.skip order = Encoder.skipEach order done) (types : List Encoder) :
    (struct.register types).2.encoder.skip order = Encoder.skipEach order (done ++ types) := by
  induction types generalizing struct done with
  | nil => rwa [List.append_nil]
  | cons type types ih =>
      have later := ih (skip_field skips type)
      rw [List.append_assoc, List.singleton_append] at later
      exact later

theorem register_length (struct : VariableStruct) (types : List Encoder) :
    (struct.register types).1.length = types.length := by
  induction types generalizing struct with
  | nil => rfl
  | cons type types ih => exact congrArg (· + 1) (ih (struct.field type).2)

/-- A field that has just been registered is aligned to by skipping the fields before it, also when
its struct has got more fields. -/
theorem align_field {struct final : VariableStruct} {order : ByteOrder} (type : Encoder)
    (more : struct.fieldEncoders <+: final.fieldEncoders) :
    final.align (struct.field type).1 order = struct.encoder.skip order := by
  obtain ⟨later, extended⟩ := more
  have indexed : final.fieldEncoders.take (struct.field type).1.encodersIndex.toNat =
      struct.fieldEncoders := by
    by_cases none : struct.fieldEncoders = []
    · simp [field, none]
    · simp [field, none, ← extended]
  rw [align, indexed, skip_encoder]
  rfl

theorem align_register {struct : VariableStruct} {order : ByteOrder} {done : List Encoder}
    (skips : struct.encoder.skip order = Encoder.skipEach order done) (types : List Encoder)
    {index : Nat} (isField : index < (struct.register types).1.length) :
    (struct.register types).2.align (struct.register types).1[index] order =
      Encoder.skipEach order (done ++ types.take index) := by
  induction types generalizing struct done index with
  | nil => cases isField
  | cons type types ih =>
      cases index with
      | zero =>
          have more := (struct.fieldEncoders_field type).trans
            (fieldEncoders_register (struct.field type).2 types)
          rw [List.take_zero, List.append_nil, ← skips]
          exact align_field type more
      | succ index =>
          have later := ih (skip_field skips type) (Nat.lt_of_succ_lt_succ isField)
          rw [List.append_assoc, List.singleton_append] at later
          exact later

theorem skip_new (order : ByteOrder) : new.encoder.skip order = Encoder.skipEach order [] := by
  rw [skip_encoder, new, addPosition_zero, pure_bind]

end VariableStruct

end Conclave.Common
