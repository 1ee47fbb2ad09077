import ConclaveFormal.Common.Cursor

/-!
# Views of structs

Each field of a struct has its own bytes.  In a struct of a fixed size a field is found by a path
through the structs that it is in, and what is written to it is read back from there and changes
no field apart from it.
-/

set_option autoImplicit false

namespace Conclave.Common

open Conclave.Lib

/-! ## Offsets -/

namespace FixedType

def layout (fields : List FixedType) : Lib.Struct := ⟨fields.map FixedType.width⟩

def offset (fields : List FixedType) (index : Nat) : Nat := (layout fields).offset index

theorem layout_size (fields : List FixedType) : (layout fields).size = totalWidth fields := by
  rw [totalWidth_eq_sum, layout, Lib.Struct.size]

variable {fields : List FixedType} {type : FixedType} {index : Nat}

theorem layout_sizes (has : fields[index]? = some type) :
    (layout fields).sizes[index]? = some type.width := by
  rw [layout, List.getElem?_map, has, Option.map_some]

theorem offset_add_le_total (has : fields[index]? = some type) :
    offset fields index + type.width ≤ totalWidth fields := by
  have within := (layout fields).offset_add_le (layout_sizes has)
  rwa [layout_size] at within

/-- A field ends where the next one begins, or before. -/
theorem offset_add_le_offset (has : fields[index]? = some type) {later : Nat}
    (before : index < later) : offset fields index + type.width ≤ offset fields later := by
  have hasInFront : (fields.take later)[index]? = some type := by
    rw [List.getElem?_take_of_lt before]
    exact has
  have within := offset_add_le_total hasInFront
  have same : offset (fields.take later) index = offset fields index := by
    rw [offset, offset, layout, layout, Lib.Struct.offset, Lib.Struct.offset, List.map_take,
      List.take_take, min_eq_left before.le]
  have total : totalWidth (fields.take later) = offset fields later := by
    rw [totalWidth_eq_sum, offset, layout, Lib.Struct.offset, List.map_take]
  rwa [same, total] at within

end FixedType

theorem Field.registered_fixed {fields : List FixedType} {type : FixedType}
    (field : Field (.struct fields) (.fixed type)) : fields[field.index]? = some type := by
  have has := field.registered
  rw [StructType.fields, List.getElem?_map] at has
  cases found : fields[field.index]? with
  | none =>
      rw [found] at has
      cases has
  | some other =>
      rw [found] at has
      cases has
      rfl

/-- Of a fixed size, the parts have the widths of the fields. -/
theorem lengths_of_encode {order : ByteOrder} {fields : List FixedType} {parts : List Bytes}
    (encode : List.Forall₂ (FieldType.Encodes order) (fields.map FieldType.fixed) parts) :
    parts.map List.length = fields.map FixedType.width := by
  induction fields generalizing parts with
  | nil =>
      cases encode
      rfl
  | cons type types ih =>
      cases encode with
      | cons encodes later =>
          rw [FieldType.Encodes] at encodes
          rw [List.map_cons, List.map_cons, encodes, ih later]

section Fields

variable {fields : List FixedType} {type : FixedType} {memory : Bytes}
  {cursor : Cursor (StructType.struct fields).type}

/-- The cursor has all of its struct, in an array that has room for it. -/
structure Cursor.Holds (cursor : Cursor (StructType.struct fields).type) (memory : Bytes) :
    Prop where
  fits : cursor.underlyingBuffer.Fits memory
  room : cursor.underlyingBuffer.position + FixedType.totalWidth fields ≤
    cursor.underlyingBuffer.limit

/-- Where a field of a fixed size is, nothing in the array decides. -/
theorem Cursor.get_covers (holds : cursor.Holds memory)
    (field : Field (.struct fields) (.fixed type)) :
    ∃ inner, cursor.get memory field = .ok inner ∧
      inner.Covers cursor.underlyingBuffer (FixedType.offset fields field.index) type.width := by
  have room := holds.room
  have long : FixedType.totalWidth fields ≤ (cursor.underlyingBuffer.remaining memory).length := by
    rw [View.remaining_length holds.fits]
    omega
  have encodes : (StructType.struct fields).type.Encodes .littleEndian
      ((cursor.underlyingBuffer.remaining memory).take (FixedType.totalWidth fields)) := by
    change ((cursor.underlyingBuffer.remaining memory).take _).length = _
    rw [List.length_take_of_le long, FixedType.width]
  obtain ⟨parts, encode, flat⟩ := FieldType.encodeEach_iff.mp (StructType.encodes_iff.mp encodes)
  have lengths := lengths_of_encode encode
  have remains : cursor.underlyingBuffer.remaining memory = parts.flatten ++
      (cursor.underlyingBuffer.remaining memory).drop (FixedType.totalWidth fields) := by
    rw [← flat, List.take_append_drop]
  have isPart : field.index < parts.length := by
    rw [← encode.length_eq]
    exact field.isField
  obtain ⟨inner, got, covers⟩ :=
    get_of_parts holds.fits remains encode field (List.getElem?_eq_getElem isPart)
  have width : (parts[field.index]).length = type.width := by
    have same := congrArg (fun sizes => sizes[field.index]?) lengths
    rw [List.getElem?_map, List.getElem?_map, List.getElem?_eq_getElem isPart,
      field.registered_fixed] at same
    exact Option.some.inj same
  have offset : (parts.take field.index).flatten.length =
      FixedType.offset fields field.index := by
    rw [List.length_flatten, List.map_take, lengths, FixedType.offset, FixedType.layout,
      Lib.Struct.offset]
  rw [width, offset] at covers
  exact ⟨inner, got, covers⟩

/-- The bytes of a field are those that the layout of the struct says. -/
theorem Cursor.get_bytes (holds : cursor.Holds memory) {bytes : Bytes}
    (sized : bytes.length = (FixedType.layout fields).size) (covers : cursor.bytes memory = bytes)
    (field : Field (.struct fields) (.fixed type)) :
    ∃ inner, cursor.get memory field = .ok inner ∧
      inner.bytes memory = (Lib.Cursor.mk bytes sized).get field.index := by
  obtain ⟨inner, got, inside⟩ := get_covers holds field
  have has := FixedType.layout_sizes field.registered_fixed
  have within := (FixedType.layout fields).offset_add_le has
  have part : (Lib.Cursor.mk bytes sized).get field.index =
      (bytes.drop (FixedType.offset fields field.index)).take type.width := by
    rw [Lib.Cursor.get, List.getD_eq_getElem?_getD, has, Option.getD_some]
    rfl
  have before : (bytes.take (FixedType.offset fields field.index)).length =
      FixedType.offset fields field.index :=
    List.length_take_of_le (by rw [sized]; exact (Nat.le_add_right _ _).trans within)
  have width : ((Lib.Cursor.mk bytes sized).get field.index).length = type.width :=
    (Lib.Cursor.mk bytes sized).get_length has
  rw [← before, ← width] at inside
  have split : cursor.underlyingBuffer.remaining memory =
      bytes.take (FixedType.offset fields field.index) ++
        ((Lib.Cursor.mk bytes sized).get field.index ++
          (bytes.drop (FixedType.offset fields field.index)).drop type.width) := by
    rw [part, List.take_append_drop, List.take_append_drop]
    exact covers
  exact ⟨inner, got, inside.bytes_eq holds.fits split⟩

end Fields

/-! ## Paths -/

/-- A field of a struct, or one of a struct that is a field of it. -/
inductive Path : List FixedType → FixedType → Type where
  | last {fields : List FixedType} {type : FixedType}
      (field : Field (.struct fields) (.fixed type)) : Path fields type
  | inside {fields inner : List FixedType} {type : FixedType}
      (field : Field (.struct fields) (.fixed (.struct inner))) (path : Path inner type) :
      Path fields type

namespace Path

def get (memory : Bytes) {type : FixedType} :
    {fields : List FixedType} → Path fields type → Cursor (StructType.struct fields).type →
      Except ViewError (Cursor (.fixed type))
  | _, .last field, cursor => cursor.get memory field
  | _, .inside field path, cursor => do
      let inner ← cursor.get memory field
      path.get memory inner

def set (memory : Bytes) {type : FixedType} (value : type.encoder.Value) :
    {fields : List FixedType} → Path fields type → Cursor (StructType.struct fields).type →
      Except ViewError Bytes
  | _, .last field, cursor => cursor.set memory field value
  | _, .inside field path, cursor => do
      let inner ← cursor.get memory field
      path.set memory value inner

variable {fields : List FixedType} {type : FixedType}

def read (memory : Bytes) (path : Path fields type)
    (cursor : Cursor (StructType.struct fields).type) :
    Except ViewError type.encoder.Value := do
  let target ← path.get memory cursor
  target.read memory

def bytes (memory : Bytes) (path : Path fields type)
    (cursor : Cursor (StructType.struct fields).type) : Except ViewError Bytes := do
  let target ← path.get memory cursor
  return target.bytes memory

def indices {type : FixedType} : {fields : List FixedType} → Path fields type → List Nat
  | _, .last field => [field.index]
  | _, .inside field path => field.index :: path.indices

/-- Neither is the other, or in it. -/
def Apart {other : FixedType} (path : Path fields type) (elsewhere : Path fields other) : Prop :=
  ¬ path.indices <+: elsewhere.indices ∧ ¬ elsewhere.indices <+: path.indices

def offset {type : FixedType} : {fields : List FixedType} → Path fields type → Nat
  | fields, .last field => FixedType.offset fields field.index
  | fields, .inside field path => FixedType.offset fields field.index + path.offset

/-! ## Where a path leads -/

variable {memory : Bytes} {cursor : Cursor (StructType.struct fields).type}

theorem holds_of_covers {inner : List FixedType} {within : Cursor (StructType.struct inner).type}
    {offset : Nat} (holds : cursor.Holds memory)
    (covers : within.Covers cursor.underlyingBuffer offset (FixedType.struct inner).width) :
    within.Holds memory where
  fits := covers.fits holds.fits
  room := by rw [covers.position, covers.limit, FixedType.width]

theorem get_covers (holds : cursor.Holds memory) (path : Path fields type) :
    ∃ target, path.get memory cursor = .ok target ∧
      target.Covers cursor.underlyingBuffer path.offset type.width := by
  induction path with
  | last field => exact Cursor.get_covers holds field
  | inside field path ih =>
      obtain ⟨inner, got, covers⟩ := Cursor.get_covers holds field
      obtain ⟨target, reached, deeper⟩ := ih (holds_of_covers holds covers)
      refine ⟨target, ?_, covers.trans deeper⟩
      rw [get, got]
      exact reached

theorem offset_add_le (path : Path fields type) :
    path.offset + type.width ≤ FixedType.totalWidth fields := by
  induction path with
  | last field => exact FixedType.offset_add_le_total field.registered_fixed
  | inside field path ih =>
      have within := FixedType.offset_add_le_total field.registered_fixed
      rw [FixedType.width] at within
      rw [offset, Nat.add_assoc]
      exact (Nat.add_le_add_left ih _).trans within

/-! ## Paths that lead apart -/

def first {type : FixedType} : {fields : List FixedType} → Path fields type → Nat
  | _, .last field => field.index
  | _, .inside field _ => field.index

theorem offset_first_le (path : Path fields type) :
    FixedType.offset fields path.first ≤ path.offset := by
  cases path with
  | last field => exact le_rfl
  | inside field path => exact Nat.le_add_right _ _

theorem offset_add_le_offset (path : Path fields type) {later : Nat}
    (before : path.first < later) : path.offset + type.width ≤ FixedType.offset fields later := by
  cases path with
  | last field => exact FixedType.offset_add_le_offset field.registered_fixed before
  | inside field path =>
      have ends := FixedType.offset_add_le_offset field.registered_fixed before
      rw [FixedType.width] at ends
      rw [offset, Nat.add_assoc]
      exact (Nat.add_le_add_left path.offset_add_le _).trans ends

theorem ends_before {other : FixedType} (path : Path fields type) (elsewhere : Path fields other)
    (before : path.first < elsewhere.first) : path.offset + type.width ≤ elsewhere.offset :=
  (path.offset_add_le_offset before).trans elsewhere.offset_first_le

/-- Two fields that are apart have no byte in common. -/
theorem disjoint_of_apart {other : FixedType} (path : Path fields type)
    (elsewhere : Path fields other) (apart : path.Apart elsewhere) :
    path.offset + type.width ≤ elsewhere.offset ∨
      elsewhere.offset + other.width ≤ path.offset := by
  induction path with
  | last field =>
      rcases lt_trichotomy (last field).first elsewhere.first with before | same | behind
      · exact .inl (ends_before _ elsewhere before)
      · apply absurd _ apart.1
        cases elsewhere with
        | last other => exact List.cons_prefix_cons.mpr ⟨same, List.nil_prefix⟩
        | inside other later => exact List.cons_prefix_cons.mpr ⟨same, List.nil_prefix⟩
      · exact .inr (ends_before elsewhere _ behind)
  | inside field path ih =>
      rcases lt_trichotomy (inside field path).first elsewhere.first with before | same | behind
      · exact .inl (ends_before _ elsewhere before)
      · cases elsewhere with
        | last other =>
            exact absurd (List.cons_prefix_cons.mpr ⟨same.symm, List.nil_prefix⟩) apart.2
        | inside other later =>
            have index : field.index = other.index := same
            have registered := other.registered_fixed
            rw [← index, field.registered_fixed] at registered
            cases registered
            have further := ih later
              ⟨fun within => apart.1 (List.cons_prefix_cons.mpr ⟨index, within⟩),
                fun within => apart.2 (List.cons_prefix_cons.mpr ⟨index.symm, within⟩)⟩
            rw [offset, offset, ← index]
            omega
      · exact .inr (ends_before elsewhere _ behind)

end Path

/-! ## Writing to a field -/

namespace Cursor.Covers

variable {type : FixedType} {view : View} {memory after : Bytes} {offset length : Nat}
  {value : type.encoder.Value}

theorem write_eq_ok_iff {target : Cursor (.fixed type)}
    (covers : target.Covers view offset type.width) :
    target.write memory value = .ok after ↔
      view.isReadOnly = false ∧ ∃ bytes, type.encoder.encode .littleEndian value = .ok bytes ∧
        after = splice memory (view.position + offset) bytes := by
  have written : target.write memory value =
      (type.encoder.encode .littleEndian value >>= fun bytes => target.buffer.put memory bytes) :=
    rfl
  rw [written, ← covers.isReadOnly, ← covers.position]
  cases encoded : type.encoder.encode .littleEndian value with
  | error e =>
      constructor
      · intro returned
        cases returned
      · rintro ⟨-, bytes, impossible, -⟩
        cases impossible
  | ok bytes =>
      have sized := (FixedEncoder.reads_of_encode encoded).1
      have room : target.buffer.position + bytes.length ≤ target.buffer.limit := by
        change target.underlyingBuffer.position + bytes.length ≤ target.underlyingBuffer.limit
        rw [sized, FixedType.encoder_size, covers.position, covers.limit]
      constructor
      · intro returned
        obtain ⟨writable, -, rfl⟩ := View.put_eq_ok returned
        exact ⟨writable, bytes, rfl, rfl⟩
      · rintro ⟨writable, _, same, rfl⟩
        cases same
        exact View.put_eq writable room

/-- What has been written is read back. -/
theorem read_of_write {target : Cursor (.fixed type)}
    (covers : target.Covers view offset type.width) (fits : view.Fits memory)
    (returned : target.write memory value = .ok after) : target.read after = .ok value := by
  obtain ⟨-, bytes, encoded, rfl⟩ := covers.write_eq_ok_iff.mp returned
  obtain ⟨sized, reads⟩ := FixedEncoder.reads_of_encode encoded
  rw [FixedType.encoder_size] at sized
  have limit : target.buffer.limit = target.buffer.position + bytes.length := by
    change target.underlyingBuffer.limit = target.underlyingBuffer.position + bytes.length
    rw [sized, covers.position, covers.limit]
  have inside : target.buffer.position + bytes.length ≤ memory.length := by
    rw [← limit]
    exact target.buffer.within.trans (covers.fits fits)
  have holds : target.buffer.remaining (splice memory target.buffer.position bytes) = bytes :=
    View.remaining_splice_same inside limit
  have position : target.buffer.position = view.position + offset := covers.position
  rw [position] at holds
  have ran := reads []
  rw [List.append_nil] at ran
  have reading : (FieldType.fixed type).encoder.read target.buffer.order bytes =
      .ok (value, []) := ran
  rw [read, holds, reading]

/-- A cursor apart from the bytes written keeps its own. -/
theorem bytes_of_write {other : FieldType} {target : Cursor (.fixed type)}
    {elsewhere : Cursor other}
    {further : Nat} (covers : target.Covers view offset type.width)
    (otherCovers : elsewhere.Covers view further length) (fits : view.Fits memory)
    (apart : offset + type.width ≤ further ∨ further + length ≤ offset)
    (returned : target.write memory value = .ok after) :
    elsewhere.bytes after = elsewhere.bytes memory := by
  obtain ⟨-, bytes, encoded, rfl⟩ := covers.write_eq_ok_iff.mp returned
  have sized := (FixedEncoder.reads_of_encode encoded).1
  rw [FixedType.encoder_size] at sized
  have end_ := covers.limit
  have inArray := target.underlyingBuffer.within.trans (covers.fits fits)
  have position : elsewhere.buffer.position = view.position + further := otherCovers.position
  have limit : elsewhere.buffer.limit = view.position + further + length := otherCovers.limit
  apply View.remaining_splice_apart
  · omega
  · omega

end Cursor.Covers

namespace Path

variable {fields : List FixedType} {type : FixedType} {memory after : Bytes}
  {cursor : Cursor (StructType.struct fields).type}

theorem set_eq (value : type.encoder.Value) (path : Path fields type) :
    path.set memory value cursor =
      (path.get memory cursor >>= fun target => target.write memory value) := by
  induction path with
  | last field => rfl
  | inside field path ih =>
      rw [set, get, bind_assoc]
      congr 1
      funext inner
      exact ih value

theorem set_of_get {value : type.encoder.Value} {path : Path fields type}
    {target : Cursor (.fixed type)} (got : path.get memory cursor = .ok target) :
    path.set memory value cursor = target.write memory value := by
  rw [set_eq, got]
  rfl

/-- A struct of a fixed size has its fields in the same places after bytes of it have changed. -/
theorem get_after {other : FixedType} (holds : cursor.Holds memory)
    (same : after.length = memory.length) (path : Path fields other) :
    path.get after cursor = path.get memory cursor := by
  have still : cursor.Holds after := ⟨holds.fits.trans same.ge, holds.room⟩
  obtain ⟨target, got, covers⟩ := path.get_covers holds
  obtain ⟨again, gotAfter, coversAfter⟩ := path.get_covers still
  rw [got, gotAfter, coversAfter.unique covers]

theorem length_of_set {value : type.encoder.Value} (holds : cursor.Holds memory)
    (path : Path fields type) (returned : path.set memory value cursor = .ok after) :
    after.length = memory.length := by
  obtain ⟨target, got, covers⟩ := path.get_covers holds
  rw [set_of_get got] at returned
  obtain ⟨-, bytes, encoded, rfl⟩ := covers.write_eq_ok_iff.mp returned
  have sized := (FixedEncoder.reads_of_encode encoded).1
  rw [FixedType.encoder_size] at sized
  have inArray := target.underlyingBuffer.within.trans (covers.fits holds.fits)
  have limit := covers.limit
  apply splice_length
  omega

/-- What an assignment to a field returns for, and what it leaves. -/
structure Assigns (path : Path fields type) (cursor : Cursor (StructType.struct fields).type)
    (memory : Bytes) (value : type.encoder.Value) : Prop where
  returns_iff : (∃ after, path.set memory value cursor = .ok after) ↔
    cursor.underlyingBuffer.isReadOnly = false ∧ type.encoder.Accepts value
  read_same : ∀ after, path.set memory value cursor = .ok after →
    path.read after cursor = .ok value
  get_eq : ∀ after, path.set memory value cursor = .ok after →
    ∀ {other : FixedType} (elsewhere : Path fields other),
      elsewhere.get after cursor = elsewhere.get memory cursor
  apart_eq : ∀ after, path.set memory value cursor = .ok after →
    ∀ {other : FixedType} (elsewhere : Path fields other), path.Apart elsewhere →
      elsewhere.bytes after cursor = elsewhere.bytes memory cursor ∧
        elsewhere.read after cursor = elsewhere.read memory cursor

theorem assigns (holds : cursor.Holds memory) (path : Path fields type)
    (value : type.encoder.Value) : path.Assigns cursor memory value := by
  obtain ⟨target, got, covers⟩ := path.get_covers holds
  refine ⟨?_, ?_, ?_, ?_⟩
  · rw [set_of_get got]
    constructor
    · rintro ⟨after, returned⟩
      obtain ⟨writable, bytes, encoded, -⟩ := covers.write_eq_ok_iff.mp returned
      exact ⟨writable, FixedEncoder.accepts_of_encode encoded⟩
    · rintro ⟨writable, accepts⟩
      obtain ⟨bytes, encoded, -⟩ := FixedEncoder.encode_of_accepts .littleEndian accepts
      exact ⟨_, covers.write_eq_ok_iff.mpr ⟨writable, bytes, encoded, rfl⟩⟩
  · intro after returned
    have same := length_of_set holds path returned
    rw [set_of_get got] at returned
    rw [read, get_after holds same, got]
    exact covers.read_of_write holds.fits returned
  · intro after returned other elsewhere
    exact get_after holds (length_of_set holds path returned) elsewhere
  · intro after returned other elsewhere apart
    have same := length_of_set holds path returned
    rw [set_of_get got] at returned
    obtain ⟨further, gotFurther, furtherCovers⟩ := elsewhere.get_covers holds
    have kept := covers.bytes_of_write furtherCovers holds.fits
      (path.disjoint_of_apart elsewhere apart) returned
    rw [bytes, bytes, read, read, get_after holds same, gotFurther]
    constructor
    · exact congrArg Except.ok kept
    · change further.read after = further.read memory
      have remaining : further.buffer.remaining after = further.buffer.remaining memory := kept
      rw [Cursor.read, Cursor.read, remaining]

end Path

/-! ## What holds of a view -/

/-- Each field is covered exactly, and the struct measures and skips what the fields are
together. -/
structure Cursor.ViewsParts {struct : StructType} (cursor : Cursor struct.type) (memory : Bytes)
    (parts : List Bytes) : Prop where
  covers : ∀ {type : FieldType} {part : Bytes} (field : Field struct type),
    parts[field.index]? = some part → ∃ inner, cursor.get memory field = .ok inner ∧
      inner.underlyingBuffer.position =
        cursor.underlyingBuffer.position + ((parts.take field.index).map List.length).sum ∧
      inner.bytes memory = part
  size : Cursor.sizeIn struct.type cursor.underlyingBuffer memory =
    .ok (parts.map List.length).sum
  skip : ∃ moved,
    (cursor.underlyingBuffer.advance memory fun order => struct.type.encoder.skip order) =
        .ok ((), moved) ∧
      moved.position = cursor.underlyingBuffer.position + (parts.map List.length).sum

def StructType.Assigns :
    (struct : StructType) → Cursor struct.type → Bytes → Prop
  | .struct fields, cursor, memory =>
      ∀ {type : FixedType} (path : Path fields type) (value : type.encoder.Value),
        path.Assigns cursor memory value
  | .variableStruct _, _, _ => True

section Views

variable {struct : StructType} {memory rest : Bytes} {parts : List Bytes}
  {cursor : Cursor struct.type}

theorem Cursor.covers_of_parts (fits : cursor.underlyingBuffer.Fits memory)
    (holds : cursor.underlyingBuffer.remaining memory = parts.flatten ++ rest)
    (encode : List.Forall₂ (FieldType.Encodes .littleEndian) struct.fields parts)
    {type : FieldType} {part : Bytes} (field : Field struct type)
    (has : parts[field.index]? = some part) :
    ∃ inner, cursor.get memory field = .ok inner ∧
      inner.underlyingBuffer.position =
        cursor.underlyingBuffer.position + ((parts.take field.index).map List.length).sum ∧
      inner.bytes memory = part := by
  obtain ⟨isPart, isThis⟩ := List.getElem?_eq_some_iff.mp has
  obtain ⟨inner, got, covers⟩ := get_of_parts fits holds encode field has
  have behind : part ++ (parts.drop (field.index + 1)).flatten =
      (parts.drop field.index).flatten := by
    rw [List.drop_eq_getElem_cons isPart, List.flatten_cons, isThis]
  have split : parts.flatten ++ rest = (parts.take field.index).flatten ++
      (part ++ ((parts.drop (field.index + 1)).flatten ++ rest)) := by
    rw [← List.append_assoc part, behind, ← List.append_assoc, ← List.flatten_append,
      List.take_append_drop]
  refine ⟨inner, got, ?_, covers.bytes_eq fits (holds.trans split)⟩
  rw [← List.length_flatten]
  exact covers.position

theorem StructType.assigns (fits : cursor.underlyingBuffer.Fits memory)
    (holds : cursor.underlyingBuffer.remaining memory = parts.flatten ++ rest)
    (encode : List.Forall₂ (FieldType.Encodes .littleEndian) struct.fields parts) :
    struct.Assigns cursor memory := by
  cases struct with
  | variableStruct fields => trivial
  | struct fields =>
      have sized : parts.flatten.length = FixedType.totalWidth fields := by
        rw [List.length_flatten, lengths_of_encode encode, FixedType.totalWidth_eq_sum]
      have length := congrArg List.length holds
      rw [View.remaining_length fits, List.length_append, sized] at length
      have ordered := cursor.underlyingBuffer.ordered
      have room : cursor.underlyingBuffer.position + FixedType.totalWidth fields ≤
          cursor.underlyingBuffer.limit := by omega
      intro type path value
      exact path.assigns ⟨fits, room⟩ value

/-- On a well-formed encoding everything holds exactly if the encoding is well-formed in the order
of the buffer too.  Only skipping goes by that order. -/
theorem Cursor.viewsParts_iff (cursor : Cursor struct.type)
    (fits : cursor.underlyingBuffer.Fits memory)
    (holds : cursor.underlyingBuffer.remaining memory = parts.flatten ++ rest)
    (encode : List.Forall₂ (FieldType.Encodes .littleEndian) struct.fields parts) :
    cursor.ViewsParts memory parts ∧ struct.Assigns cursor memory ↔
      cursor.underlyingBuffer.order = .littleEndian ∨
        struct.type.Encodes .bigEndian parts.flatten := by
  have skips := struct.advance_skip_iff fits holds
  rw [List.length_flatten] at skips
  constructor
  · rintro ⟨views, -⟩
    have encodes := skips.mp views.skip
    cases order : cursor.underlyingBuffer.order with
    | littleEndian => exact .inl rfl
    | bigEndian =>
        rw [order] at encodes
        exact .inr encodes
  · intro condition
    have encodes : struct.type.Encodes cursor.underlyingBuffer.order parts.flatten := by
      rcases condition with little | big
      · rw [little]
        exact StructType.encodes_of_parts encode
      · cases order : cursor.underlyingBuffer.order with
        | littleEndian => exact StructType.encodes_of_parts encode
        | bigEndian => exact big
    have size := sizeIn_of_encodes (StructType.encodes_of_parts encode) holds
    rw [List.length_flatten] at size
    exact ⟨⟨covers_of_parts fits holds encode, size, skips.mpr encodes⟩,
      struct.assigns fits holds encode⟩

end Views

/-! ## A struct in a struct, and a struct in a buffer in the wrong order -/

/-- A measurement and a version, in front of which stands a flag. -/
def nestedFields : List FixedType := [.uInt16, .struct [.fixedBytes 3, .uInt32]]

def nestedParts : List Bytes := [[1, 0], [0xA0, 0xA1, 0xA2, 5, 0, 0, 0]]

def nestedCursor : Cursor (StructType.struct nestedFields).type :=
  ⟨View.wrap nestedParts.flatten⟩

theorem Cursor.viewsParts_nested :
    nestedCursor.ViewsParts nestedParts.flatten nestedParts ∧
      (StructType.struct nestedFields).Assigns nestedCursor nestedParts.flatten := by
  have fits : nestedCursor.underlyingBuffer.Fits nestedParts.flatten := le_rfl
  have holds : nestedCursor.underlyingBuffer.remaining nestedParts.flatten =
      nestedParts.flatten ++ [] := by rfl
  have encode : List.Forall₂ (FieldType.Encodes .littleEndian)
      (StructType.struct nestedFields).fields nestedParts := by
    apply List.Forall₂.cons
    · rfl
    · exact .cons rfl .nil
  have encodesBig : (StructType.struct nestedFields).type.Encodes .bigEndian
      nestedParts.flatten := by rfl
  exact (viewsParts_iff nestedCursor fits holds encode).mpr (.inr encodesBig)

def prefixedStruct : StructType := .variableStruct [.variableBytes .uInt16VariableBytes]

def prefixedBytes : Bytes := [1, 0, 0xAA]

/-- The buffer is in the order that a new one has. -/
def prefixedCursor : Cursor prefixedStruct.type := ⟨View.wrap prefixedBytes⟩

theorem Cursor.skip_prefixedBytes :
    List.Forall₂ (FieldType.Encodes .littleEndian) prefixedStruct.fields [prefixedBytes] ∧
      prefixedCursor.bytes prefixedBytes = prefixedBytes ∧
      Cursor.sizeIn prefixedStruct.type prefixedCursor.underlyingBuffer prefixedBytes = .ok 3 ∧
      (prefixedCursor.underlyingBuffer.advance prefixedBytes fun order =>
        prefixedStruct.type.encoder.skip order) = .error .illegalArgument ∧
      ¬ prefixedCursor.ViewsParts prefixedBytes [prefixedBytes] := by
  have skipped : (prefixedCursor.underlyingBuffer.advance prefixedBytes fun order =>
      prefixedStruct.type.encoder.skip order) = .error .illegalArgument := by rfl
  refine ⟨.cons ⟨[1, 0], [0xAA], rfl, rfl, ?_, rfl⟩ .nil, rfl, rfl, skipped, ?_⟩
  · exact Nat.lt_of_sub_eq_succ rfl
  · intro views
    obtain ⟨moved, ran, -⟩ := views.skip
    rw [skipped] at ran
    cases ran

end Conclave.Common
