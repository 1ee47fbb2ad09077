import ConclaveFormal.Lib.ByteBuffer

/-!
# Structs

A typed view of the bytes of a C struct: the fields follow each other, so that their sizes tell
where they are.  `copy` takes a value of a type from a buffer, after it has looked how long it is.
-/

set_option autoImplicit false

namespace Conclave.Lib

open BufferReader

def ofLittleEndian (bytes : Bytes) : Nat := ofBigEndian bytes.reverse

/-- The sizes of the fields, in order. -/
structure Struct where
  sizes : List Nat
  deriving DecidableEq

namespace Struct

variable (type : Struct)

def size : Nat := type.sizes.sum

def offset (field : Nat) : Nat := (type.sizes.take field).sum

theorem offset_add_le {field width : Nat} (has : type.sizes[field]? = some width) :
    type.offset field + width ≤ type.size := by
  have whole : type.sizes.take field ++ type.sizes.drop field = type.sizes :=
    List.take_append_drop field type.sizes
  have behind : (type.sizes.drop field)[0]? = some width := by
    rw [List.getElem?_drop]
    exact has
  rw [offset, size, ← congrArg List.sum whole, List.sum_append]
  cases tail : type.sizes.drop field with
  | nil =>
      rw [tail] at behind
      cases behind
  | cons first rest =>
      rw [tail] at behind
      cases behind
      rw [List.sum_cons]
      omega

end Struct

structure Cursor (type : Struct) where
  bytes : Bytes
  sized : bytes.length = type.size
  deriving DecidableEq

namespace Cursor

variable {type : Struct}

/-- The bytes of a field. -/
def get (cursor : Cursor type) (field : Nat) : Bytes :=
  (cursor.bytes.drop (type.offset field)).take (type.sizes.getD field 0)

theorem get_length (cursor : Cursor type) {field width : Nat}
    (has : type.sizes[field]? = some width) : (cursor.get field).length = width := by
  have inside := type.offset_add_le has
  rw [get, List.length_take, List.length_drop, cursor.sized, List.getD_eq_getElem?_getD, has,
    Option.getD_some]
  omega

/-- A field that is a struct. -/
def field (cursor : Cursor type) (field : Nat) (inner : Struct)
    (has : type.sizes[field]? = some inner.size) : Cursor inner :=
  ⟨cursor.get field, cursor.get_length has⟩

end Cursor

namespace BufferReader

/-- The size of what a skip passes over; the position stays. -/
def sizeOf (skip : BufferReader Unit) : BufferReader Nat := fun remaining =>
  match skip remaining with
  | .ok (_, rest) => .ok (remaining.length - rest.length, remaining)
  | .error e => .error e

/-- The bytes of the value at the position. -/
def copy (size : BufferReader Nat) : BufferReader Bytes := do
  let size ← size
  let available ← remaining
  require (size ≤ available)
  getBytes size

end BufferReader

/-! ## Reading back -/

/-- The reader measures the bytes and leaves them. -/
def Measures (size : BufferReader Nat) (bytes : Bytes) : Prop :=
  ∀ rest, size (bytes ++ rest) = .ok (bytes.length, bytes ++ rest)

theorem Measures.pure {bytes : Bytes} {length : Nat} (sized : bytes.length = length) :
    Measures (Pure.pure length) bytes := by
  intro rest
  rw [← sized]
  rfl

theorem Measures.sizeOf {skip : BufferReader Unit} {bytes : Bytes}
    (skips : Reads skip bytes ()) : Measures (sizeOf skip) bytes := by
  intro rest
  have length : (bytes ++ rest).length - rest.length = bytes.length := by
    rw [List.length_append, Nat.add_sub_cancel]
  rw [BufferReader.sizeOf, skips rest]
  exact congrArg (fun size => Except.ok (size, bytes ++ rest)) length

theorem Reads.copy {size : BufferReader Nat} {bytes : Bytes} (measured : Measures size bytes) :
    Reads (BufferReader.copy size) bytes bytes := by
  intro rest
  have available : BufferReader.remaining (bytes ++ rest) =
      .ok ((bytes ++ rest).length, bytes ++ rest) := rfl
  have enough : decide (bytes.length ≤ (bytes ++ rest).length) = true := by simp
  have required := Reads.require enough (bytes ++ rest)
  rw [List.nil_append] at required
  rw [BufferReader.copy, bind_ok (measured rest), bind_ok available, bind_ok required]
  exact Reads.getBytes bytes rest

/-! ## Readers that look no further -/

/-- What follows in the buffer does not change the outcome of a successful read. -/
def Local {α : Type} (reader : BufferReader α) : Prop :=
  ∀ input value left, reader input = .ok (value, left) →
    ∀ rest, reader (input ++ rest) = .ok (value, left ++ rest)

namespace Local

variable {α β : Type}

theorem reads {reader : BufferReader α} (local_ : Local reader) {bytes : Bytes} {value : α}
    (ran : reader bytes = .ok (value, [])) : Reads reader bytes value :=
  fun rest => local_ bytes value [] ran rest

theorem pure (value : α) : Local (Pure.pure value : BufferReader α) := by
  intro input result left ran rest
  cases ran
  rfl

theorem throw (e : BufferError) : Local (BufferReader.throw e : BufferReader α) := by
  intro input result left ran
  cases ran

theorem bind {reader : BufferReader α} {next : α → BufferReader β} (first : Local reader)
    (later : ∀ value, Local (next value)) : Local (reader >>= next) := by
  intro input result left ran rest
  cases taken : reader input with
  | error e =>
      rw [bind_error taken] at ran
      cases ran
  | ok outcome =>
      obtain ⟨value, middle⟩ := outcome
      rw [bind_ok taken] at ran
      rw [bind_ok (first input value middle taken rest)]
      exact later value middle result left ran rest

theorem ite {condition : Prop} [Decidable condition] {yes no : BufferReader α}
    (whenYes : Local yes) (whenNo : Local no) : Local (if condition then yes else no) := by
  by_cases holds : condition
  · rw [if_pos holds]
    exact whenYes
  · rw [if_neg holds]
    exact whenNo

theorem take (length : Nat) : Local (BufferReader.take length) := by
  intro input value left ran rest
  by_cases enough : length ≤ input.length
  · rw [BufferReader.take, if_pos enough] at ran
    cases ran
    have longer : length ≤ (input ++ rest).length := by
      rw [List.length_append]
      omega
    rw [BufferReader.take, if_pos longer, List.take_append_of_le_length enough,
      List.drop_append_of_le_length enough]
  · rw [BufferReader.take, if_neg enough] at ran
    cases ran

theorem addPosition (delta : Nat) : Local (BufferReader.addPosition delta) := by
  intro input value left ran rest
  by_cases enough : delta ≤ input.length
  · rw [BufferReader.addPosition, if_pos enough] at ran
    cases ran
    have longer : delta ≤ (input ++ rest).length := by
      rw [List.length_append]
      omega
    rw [BufferReader.addPosition, if_pos longer, List.drop_append_of_le_length enough]
  · rw [BufferReader.addPosition, if_neg enough] at ran
    cases ran

end Local

end Conclave.Lib
