import ConclaveFormal.Common.StructEncodings
import Mathlib.Data.List.Forall2

/-!
# Cursors

A typed view of an encoding in a buffer.  A field of a struct is found by skipping what stands
before it, and the cursor for it ends where the field does.  A cursor reads and writes
little-endian, whatever the order of the buffer that it was made from.
-/

set_option autoImplicit false

namespace Conclave.Common

open Conclave.Lib BufferReader

/-! ## Fields -/

inductive StructType where
  | struct (fields : List FixedType)
  | variableStruct (fields : List FieldType)

namespace StructType

def type : StructType → FieldType
  | .struct fields => .fixed (.struct fields)
  | .variableStruct fields => .variableStruct fields

def fields : StructType → List FieldType
  | .struct fields => fields.map .fixed
  | .variableStruct fields => fields

theorem register_fixed_length {fields : List FixedType} {index : Nat}
    (isField : index < (fields.map FieldType.fixed).length) :
    index < (registerFixed 0 (FixedType.encoders fields)).1.length := by
  rwa [registerFixed_length, FixedType.encoders_eq_map, List.length_map,
    ← List.length_map FieldType.fixed]

theorem register_length {fields : List FieldType} {index : Nat} (isField : index < fields.length) :
    index < (VariableStruct.new.register (FieldType.encoders fields)).1.length := by
  rwa [VariableStruct.register_length, FieldType.encoders_eq_map, List.length_map]

/-- The field with this index, as it has been registered. -/
def align (order : ByteOrder) :
    (struct : StructType) → (index : Nat) → index < struct.fields.length → BufferReader Unit
  | .struct fields, index, isField =>
      ((registerFixed 0 (FixedType.encoders fields)).1.get
        ⟨index, register_fixed_length isField⟩).align order
  | .variableStruct fields, index, isField =>
      let registered := VariableStruct.new.register (FieldType.encoders fields)
      registered.2.align (registered.1.get ⟨index, register_length isField⟩) order

end StructType

/-- `AbstractStruct.Field` of a struct, with the type of its value. -/
structure Field (struct : StructType) (type : FieldType) where
  index : Nat
  registered : struct.fields[index]? = some type

theorem Field.isField {struct : StructType} {type : FieldType} (field : Field struct type) :
    field.index < struct.fields.length :=
  (List.getElem?_eq_some_iff.mp field.registered).1

/-! ## Cursors -/

structure Cursor (type : FieldType) where
  underlyingBuffer : View
  deriving DecidableEq

namespace Cursor

variable {type : FieldType} {struct : StructType}

def buffer (cursor : Cursor type) : View :=
  cursor.underlyingBuffer.duplicate.withOrder .littleEndian

def bytes (cursor : Cursor type) (memory : Bytes) : Bytes := cursor.buffer.remaining memory

def asReadOnly (cursor : Cursor type) : Cursor type := ⟨cursor.underlyingBuffer.asReadOnlyBuffer⟩

def sizeIn (type : FieldType) (view : View) (memory : Bytes) : Except ViewError Nat :=
  type.encoder.size view.order (view.remaining memory)

/-- The part of the array must be exactly the size of the type. -/
def wrap (type : FieldType) (memory : Bytes) (offset length : Nat) :
    Except ViewError (Cursor type) :=
  if inside : offset + length ≤ memory.length then do
    let buffer : View := { View.wrap memory with
      position := offset
      limit := offset + length
      ordered := Nat.le_add_right _ _
      within := inside }
    let size ← sizeIn type buffer memory
    if length = size then .ok ⟨buffer⟩ else .error (.reading .illegalArgument)
  else .error .indexOutOfBounds

/-- A cursor over the next bytes, and the buffer behind them. -/
def slice (type : FieldType) (buffer : View) (memory : Bytes) :
    Except ViewError (Cursor type × View) := do
  let size ← sizeIn type buffer memory
  if (buffer.remaining memory).length ≥ size then
    (buffer.getSlice size).map fun sliced => (⟨sliced.1⟩, sliced.2)
  else .error (.reading .illegalArgument)

/-- The cursor has an array of its own, which comes second. -/
def copy (type : FieldType) (buffer : View) (memory : Bytes) :
    Except ViewError (Cursor type × Bytes) := do
  let size ← sizeIn type buffer memory
  if (buffer.remaining memory).length ≥ size then
    let array := (buffer.remaining memory).take size
    .ok (⟨View.wrap array⟩, array)
  else .error (.reading .illegalArgument)

def get (cursor : Cursor struct.type) (memory : Bytes) (field : Field struct type) :
    Except ViewError (Cursor type) :=
  match cursor.buffer.advance memory fun order =>
      struct.align order field.index field.isField with
  | .error e => .error (.reading e)
  | .ok (_, buffer) => do
      let size ← sizeIn type buffer memory
      let limited ← buffer.setLimit (buffer.position + size)
      return ⟨limited⟩

def read (cursor : Cursor type) (memory : Bytes) : Except ViewError type.encoder.Value :=
  match type.encoder.read cursor.buffer.order (cursor.buffer.remaining memory) with
  | .ok (value, _) => .ok value
  | .error e => .error (.reading e)

/-- Only what has a fixed size is written to. -/
def write {type : FixedType} (cursor : Cursor (.fixed type)) (memory : Bytes)
    (value : type.encoder.Value) : Except ViewError Bytes :=
  type.encoder.write cursor.buffer memory value

def set {type : FixedType} (cursor : Cursor struct.type) (memory : Bytes)
    (field : Field struct (.fixed type)) (value : type.encoder.Value) : Except ViewError Bytes := do
  let target ← cursor.get memory field
  target.write memory value

end Cursor

/-! ## Structs as lists of fields -/

namespace StructType

variable {struct : StructType} {parts : List Bytes} {rest : Bytes}

theorem encoders_map_fixed (fields : List FixedType) :
    FieldType.encoders (fields.map FieldType.fixed) =
      (FixedType.encoders fields).map Encoder.fixed := by
  rw [FieldType.encoders_eq_map, FixedType.encoders_eq_map, List.map_map, List.map_map]
  apply List.map_congr_left
  intro type _
  rw [Function.comp_apply, Function.comp_apply, FieldType.encoder]

theorem align_eq (order : ByteOrder) (struct : StructType) {index : Nat}
    (isField : index < struct.fields.length) :
    struct.align order index isField =
      Encoder.skipEach order (FieldType.encoders (struct.fields.take index)) := by
  cases struct with
  | struct fields =>
      have offset := registerFixed_getElem 0 (FixedType.encoders fields)
        (register_fixed_length isField)
      rw [align, StructField.align, List.get_eq_getElem, offset, Nat.zero_add, StructType.fields,
        ← List.map_take, encoders_map_fixed, Encoder.skipEach_fixed, FixedType.encoders_eq_map,
        FixedType.encoders_eq_map, ← List.map_take]
  | variableStruct fields =>
      have aligned := VariableStruct.align_register (VariableStruct.skip_new order)
        (FieldType.encoders fields) (register_length isField)
      rw [align, List.get_eq_getElem, aligned, List.nil_append, StructType.fields,
        FieldType.encoders_eq_map, FieldType.encoders_eq_map, List.map_take]

theorem skip_eq (order : ByteOrder) (struct : StructType) :
    struct.type.encoder.skip order =
      Encoder.skipEach order (FieldType.encoders struct.fields) := by
  cases struct with
  | struct fields =>
      rw [type, StructType.fields, encoders_map_fixed, Encoder.skipEach_fixed,
        FixedType.encoders_size, FieldType.encoder, Encoder.skip, FixedType.encoder_size,
        FixedType.width]
  | variableStruct fields => exact FieldType.skip_variableStruct order fields

/-- An encoding of the struct is what its fields encode, one behind the other. -/
theorem encodes_iff {order : ByteOrder} {bytes : Bytes} :
    struct.type.Encodes order bytes ↔ FieldType.EncodeEach order struct.fields bytes := by
  have skipped := FieldType.skip_eq_ok_iff order struct.type bytes []
  rw [skip_eq, FieldType.skipEach_eq_ok_iff] at skipped
  simpa using skipped.symm

theorem encodes_of_parts {order : ByteOrder}
    (encode : List.Forall₂ (FieldType.Encodes order) struct.fields parts) :
    struct.type.Encodes order parts.flatten :=
  encodes_iff.mpr (FieldType.encodeEach_iff.mpr ⟨parts, encode, rfl⟩)

theorem align_parts {order : ByteOrder} (rest : Bytes)
    (encode : List.Forall₂ (FieldType.Encodes order) struct.fields parts) {index : Nat}
    (isField : index < struct.fields.length) :
    struct.align order index isField (parts.flatten ++ rest) =
      .ok ((), (parts.drop index).flatten ++ rest) := by
  have split : parts.flatten = (parts.take index).flatten ++ (parts.drop index).flatten := by
    rw [← List.flatten_append, List.take_append_drop]
  have before := FieldType.encodeEach_iff.mpr
    ⟨parts.take index, List.forall₂_take index encode, rfl⟩
  rw [align_eq, split]
  exact (FieldType.skipEach_eq_ok_iff order _ _ _).mpr ⟨_, List.append_assoc _ _ _, before⟩

/-- A struct measures itself in any buffer. -/
theorem size_of_encodes {bytes : Bytes} (order : ByteOrder)
    (encodes : struct.type.Encodes .littleEndian bytes) (rest : Bytes) :
    struct.type.encoder.size order (bytes ++ rest) = .ok bytes.length := by
  cases struct with
  | struct fields =>
      rw [type, FieldType.Encodes] at encodes
      rw [type, FieldType.encoder, Encoder.size, FixedType.encoder_size, encodes]
  | variableStruct fields => exact FieldType.size_variableStruct order encodes rest

variable (struct) in
/-- The bytes skipped are the encoding exactly if they are one in the order of the buffer. -/
theorem advance_skip_iff {view : View} {memory bytes : Bytes} (fits : view.Fits memory)
    (holds : view.remaining memory = bytes ++ rest) :
    (∃ moved, (view.advance memory fun order => struct.type.encoder.skip order) = .ok ((), moved) ∧
        moved.position = view.position + bytes.length) ↔
      struct.type.Encodes view.order bytes := by
  constructor
  · rintro ⟨moved, ran, position⟩
    have length := congrArg List.length holds
    rw [View.remaining_length fits, List.length_append] at length
    rw [View.advance, holds] at ran
    cases skipped : struct.type.encoder.skip view.order (bytes ++ rest) with
    | error e =>
        rw [skipped] at ran
        cases ran
    | ok result =>
        obtain ⟨⟨⟩, left⟩ := result
        rw [skipped] at ran
        cases ran
        obtain ⟨taken, split, encodes⟩ := (FieldType.skip_eq_ok_iff _ _ _ _).mp skipped
        have total := congrArg List.length split
        rw [List.length_append, List.length_append] at total
        have ordered := view.ordered
        have same : taken.length = bytes.length := by
          change view.limit - left.length = view.position + bytes.length at position
          omega
        rw [(List.append_inj split same.symm).1]
        exact encodes
  · intro encodes
    have skipped : struct.type.encoder.skip view.order (bytes ++ rest) = .ok ((), rest) :=
      (FieldType.skip_eq_ok_iff _ _ _ _).mpr ⟨bytes, rfl, encodes⟩
    obtain ⟨moved, ran, position, -⟩ :=
      View.advance_of_reads (fun order => struct.type.encoder.skip order) fits holds skipped
    exact ⟨moved, ran, position⟩

end StructType

/-! ## What a cursor covers -/

namespace Cursor

variable {type : FieldType} {struct : StructType} {memory : Bytes} {view : View}

/-- The cursor is on so many bytes of the view, from the offset on. -/
structure Covers (cursor : Cursor type) (view : View) (offset length : Nat) : Prop where
  position : cursor.underlyingBuffer.position = view.position + offset
  limit : cursor.underlyingBuffer.limit = view.position + offset + length
  capacity : cursor.underlyingBuffer.capacity = view.capacity
  order : cursor.underlyingBuffer.order = .littleEndian
  isReadOnly : cursor.underlyingBuffer.isReadOnly = view.isReadOnly

namespace Covers

variable {cursor : Cursor type} {offset length : Nat}

theorem unique {other : Cursor type} (covers : cursor.Covers view offset length)
    (again : other.Covers view offset length) : cursor = other := by
  obtain ⟨⟨position, limit, capacity, order, isReadOnly, _, _⟩⟩ := cursor
  obtain ⟨⟨position', limit', capacity', order', isReadOnly', _, _⟩⟩ := other
  obtain rfl : position = position' := covers.position.trans again.position.symm
  obtain rfl : limit = limit' := covers.limit.trans again.limit.symm
  obtain rfl : capacity = capacity' := covers.capacity.trans again.capacity.symm
  obtain rfl : order = order' := covers.order.trans again.order.symm
  obtain rfl : isReadOnly = isReadOnly' := covers.isReadOnly.trans again.isReadOnly.symm
  rfl

theorem fits (covers : cursor.Covers view offset length) (fits : view.Fits memory) :
    cursor.underlyingBuffer.Fits memory :=
  covers.capacity.le.trans fits

theorem trans {inner : FieldType} {within : Cursor inner} {further width : Nat}
    (covers : cursor.Covers view offset length)
    (deeper : within.Covers cursor.underlyingBuffer further width) :
    within.Covers view (offset + further) width where
  position := by rw [deeper.position, covers.position, Nat.add_assoc]
  limit := by rw [deeper.limit, covers.position, Nat.add_assoc view.position]
  capacity := deeper.capacity.trans covers.capacity
  order := deeper.order
  isReadOnly := deeper.isReadOnly.trans covers.isReadOnly

theorem bytes_eq {before part behind : Bytes}
    (covers : cursor.Covers view before.length part.length) (fits : view.Fits memory)
    (holds : view.remaining memory = before ++ (part ++ behind)) : cursor.bytes memory = part := by
  have length := congrArg List.length holds
  rw [View.remaining_length fits, List.length_append, List.length_append] at length
  have ordered := view.ordered
  let middle : View := { view with
    position := view.position + before.length
    ordered := by omega }
  have behindFirst : middle.remaining memory = part ++ behind :=
    View.remaining_of_rest holds rfl rfl
  have middleFits : middle.Fits memory := fits
  have covered : cursor.buffer.remaining memory = part :=
    View.remaining_of_first middleFits behindFirst covers.position covers.limit
  exact covered

end Covers

/-- A field is where the encodings of the fields before it end. -/
theorem get_of_parts {cursor : Cursor struct.type} {parts : List Bytes} {part rest : Bytes}
    (fits : cursor.underlyingBuffer.Fits memory)
    (holds : cursor.underlyingBuffer.remaining memory = parts.flatten ++ rest)
    (encode : List.Forall₂ (FieldType.Encodes .littleEndian) struct.fields parts)
    (field : Field struct type) (has : parts[field.index]? = some part) :
    ∃ inner, cursor.get memory field = .ok inner ∧
      inner.Covers cursor.underlyingBuffer (parts.take field.index).flatten.length
        part.length := by
  have isPart : field.index < parts.length := (List.getElem?_eq_some_iff.mp has).1
  have isThis : parts[field.index] = part := (List.getElem?_eq_some_iff.mp has).2
  have bufferFits : cursor.buffer.Fits memory := fits
  have before : cursor.buffer.remaining memory =
      (parts.take field.index).flatten ++ ((parts.drop field.index).flatten ++ rest) := by
    rw [← List.append_assoc, ← List.flatten_append, List.take_append_drop]
    exact holds
  have aligned := StructType.align_parts rest encode field.isField
  rw [← List.take_append_drop field.index parts, List.flatten_append, List.append_assoc,
    List.take_append_drop] at aligned
  obtain ⟨moved, ran, position, limit, capacity, order, isReadOnly⟩ :=
    View.advance_of_reads (fun order => struct.align order field.index field.isField)
      bufferFits before aligned
  have behind : moved.remaining memory =
      part ++ ((parts.drop (field.index + 1)).flatten ++ rest) := by
    rw [View.remaining_of_rest before position limit, List.drop_eq_getElem_cons isPart,
      List.flatten_cons, isThis, List.append_assoc]
  have encodes : type.Encodes .littleEndian part := by
    have these := encode.get field.isField isPart
    rw [List.get_eq_getElem, List.get_eq_getElem, isThis] at these
    rwa [(List.getElem?_eq_some_iff.mp field.registered).2] at these
  have sized : sizeIn type moved memory = .ok part.length := by
    rw [sizeIn, order, behind]
    exact FieldType.size_of_encodes encodes _
  have room : moved.position + part.length ≤ moved.limit := by
    have length := congrArg List.length behind
    have sameFits : moved.Fits memory := capacity.le.trans fits
    rw [View.remaining_length sameFits, List.length_append] at length
    have ordered := moved.ordered
    omega
  obtain ⟨limited, limiting, start, stop, whole, sameOrder, sameAccess⟩ :=
    View.setLimit_eq (room.trans moved.within)
  refine ⟨⟨limited⟩, ?_, ?_⟩
  · rw [get, ran]
    change (sizeIn type moved memory >>= fun size =>
      moved.setLimit (moved.position + size) >>= fun limited => .ok (mk limited)) = _
    rw [sized]
    change (moved.setLimit (moved.position + part.length) >>= fun limited => .ok (mk limited)) = _
    rw [limiting]
    rfl
  · exact
      { position := start.trans position
        limit := by
          rw [stop, position]
          rfl
        capacity := whole.trans capacity
        order := sameOrder.trans order
        isReadOnly := sameAccess.trans isReadOnly }

/-! ## Cursors on encodings -/

variable {bytes rest : Bytes}

theorem sizeIn_of_encodes (encodes : struct.type.Encodes .littleEndian bytes)
    (holds : view.remaining memory = bytes ++ rest) :
    sizeIn struct.type view memory = .ok bytes.length := by
  rw [sizeIn, holds]
  exact StructType.size_of_encodes view.order encodes rest

/-- Whatever follows the encoding in the array is left out. -/
theorem wrap_of_encodes {offset : Nat} (encodes : struct.type.Encodes .littleEndian bytes)
    (inside : offset ≤ memory.length) (holds : memory.drop offset = bytes ++ rest) :
    ∃ cursor, wrap struct.type memory offset bytes.length = .ok cursor ∧
      cursor.underlyingBuffer.Fits memory ∧ cursor.bytes memory = bytes := by
  have length := congrArg List.length holds
  rw [List.length_drop, List.length_append] at length
  have within : offset + bytes.length ≤ memory.length := by omega
  let buffer : View := { View.wrap memory with
    position := offset
    limit := offset + bytes.length
    ordered := Nat.le_add_right _ _
    within := within }
  have covered : buffer.remaining memory = bytes := by
    change (memory.take (offset + bytes.length)).drop offset = bytes
    rw [List.drop_take, Nat.add_sub_cancel_left, holds, List.take_left]
  have sized : sizeIn struct.type buffer memory = .ok bytes.length := by
    apply sizeIn_of_encodes encodes
    rw [covered]
    exact (List.append_nil bytes).symm
  refine ⟨⟨buffer⟩, ?_, le_rfl, covered⟩
  rw [wrap, dif_pos within]
  change (sizeIn struct.type buffer memory >>= fun size =>
    if bytes.length = size then .ok (mk buffer) else .error (.reading .illegalArgument)) = _
  rw [sized]
  exact if_pos rfl

theorem slice_of_encodes (encodes : struct.type.Encodes .littleEndian bytes)
    (fits : view.Fits memory) (holds : view.remaining memory = bytes ++ rest) :
    ∃ cursor behind, slice struct.type view memory = .ok (cursor, behind) ∧
      cursor.underlyingBuffer.Fits memory ∧ cursor.bytes memory = bytes ∧
      behind.remaining memory = rest := by
  have enough : (view.remaining memory).length ≥ bytes.length := by
    rw [holds, List.length_append]
    omega
  obtain ⟨inner, behind, sliced, inside, covered, left⟩ := View.getSlice_of_first fits holds
  refine ⟨⟨inner⟩, behind, ?_, inside, covered, left⟩
  rw [slice, sizeIn_of_encodes encodes holds]
  change (if (view.remaining memory).length ≥ bytes.length then _ else _) = _
  rw [if_pos enough, sliced]
  rfl

/-- The array of the cursor is a copy of the encoding. -/
theorem copy_of_encodes (encodes : struct.type.Encodes .littleEndian bytes)
    (holds : view.remaining memory = bytes ++ rest) :
    ∃ cursor, copy struct.type view memory = .ok (cursor, bytes) ∧
      cursor.underlyingBuffer.Fits bytes ∧ cursor.bytes bytes = bytes := by
  have enough : (view.remaining memory).length ≥ bytes.length := by
    rw [holds, List.length_append]
    omega
  refine ⟨⟨View.wrap bytes⟩, ?_, le_rfl, List.take_length⟩
  rw [copy, sizeIn_of_encodes encodes holds]
  change (if (view.remaining memory).length ≥ bytes.length then _ else _) = _
  rw [if_pos enough, holds, List.take_left]

end Cursor

end Conclave.Common
