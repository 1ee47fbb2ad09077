import ConclaveFormal.Attestation.SgxTypes
import ConclaveFormal.Common.StructViews

/-!
# The structs of a quote

The report body and the quote with the types of their fields.  Their layouts, and what is skipped of
a signed quote, come out as the attestation has them.
-/

set_option autoImplicit false

namespace Conclave.Attestation

open Conclave.Lib Conclave.Common

def SgxAttributes.fields : List FixedType := [.int64, .int64]

def SgxReportBody.fields : List FixedType :=
  [.fixedBytes 16, .uInt32, .reservedBytes 12, .fixedBytes 16, .struct SgxAttributes.fields,
    .fixedBytes 32, .reservedBytes 32, .fixedBytes 32, .reservedBytes 32, .fixedBytes 64, .uInt16,
    .uInt16, .uInt16, .reservedBytes 42, .fixedBytes 16, .fixedBytes 64]

def SgxQuote.fields : List FixedType :=
  [.uInt16, .uInt16, .fixedBytes 4, .uInt16, .uInt16, .uInt32, .fixedBytes 32,
    .struct SgxReportBody.fields]

def SgxSignedQuote.fields : List FieldType :=
  [.fixed (.struct SgxQuote.fields), .variableBytes .uInt32VariableBytes]

theorem SgxReportBody.layout_fields : FixedType.layout SgxReportBody.fields = SgxReportBody := by
  rfl

theorem SgxQuote.layout_fields : FixedType.layout SgxQuote.fields = SgxQuote := by
  rfl

theorem SgxSignedQuote.skip_fields :
    (FieldType.variableStruct SgxSignedQuote.fields).encoder.skip .littleEndian =
      SgxSignedQuote.skip := by
  have quote : (FieldType.fixed (.struct SgxQuote.fields)).encoder.skip .littleEndian =
      BufferReader.addPosition SgxQuote.size := by
    rw [FieldType.encoder, Encoder.skip, FixedType.encoder_size, ← SgxQuote.layout_fields,
      FixedType.layout_size, FixedType.width]
  have signature : (FieldType.variableBytes .uInt32VariableBytes).encoder.skip .littleEndian =
      (SgxSignedQuote.getSizeRelative >>= BufferReader.addPosition) := by
    rw [FieldType.encoder, Encoder.skip]
    rfl
  rw [FieldType.skip_variableStruct, SgxSignedQuote.fields, FieldType.encoders, FieldType.encoders,
    FieldType.encoders, Encoder.skipEach, Encoder.skipEach_singleton, quote, signature]
  rfl

/-- A signed quote is a well-formed encoding. -/
theorem SgxSignedQuote.encodes_iff {bytes : Bytes} :
    (FieldType.variableStruct SgxSignedQuote.fields).Encodes .littleEndian bytes ↔
      SgxSignedQuote.skip bytes = .ok ((), []) := by
  rw [← SgxSignedQuote.skip_fields, FieldType.skip_eq_ok_iff]
  simp

/-! ## Cursors on a quote -/

section Cursors

variable {memory : Bytes}

/-- The attestation takes the bytes of a field from where its cursor is. -/
theorem SgxReportBody.get_field
    {cursor : Common.Cursor (StructType.struct SgxReportBody.fields).type} {type : FixedType}
    (holds : cursor.Holds memory) (report : Lib.Cursor SgxReportBody)
    (covers : cursor.bytes memory = report.bytes)
    (field : Field (.struct SgxReportBody.fields) (.fixed type)) :
    ∃ inner, cursor.get memory field = .ok inner ∧ inner.bytes memory = report.get field.index :=
  Cursor.get_bytes holds report.sized covers field

theorem SgxQuote.get_field
    {cursor : Common.Cursor (StructType.struct SgxQuote.fields).type} {type : FixedType}
    (holds : cursor.Holds memory) (quote : Lib.Cursor SgxQuote)
    (covers : cursor.bytes memory = quote.bytes)
    (field : Field (.struct SgxQuote.fields) (.fixed type)) :
    ∃ inner, cursor.get memory field = .ok inner ∧ inner.bytes memory = quote.get field.index :=
  Cursor.get_bytes holds quote.sized covers field

def SgxSignedQuote.quoteField :
    Field (.variableStruct SgxSignedQuote.fields) (.fixed (.struct SgxQuote.fields)) :=
  ⟨0, rfl⟩

theorem SgxSignedQuote.get_quote
    {cursor : Common.Cursor (StructType.variableStruct SgxSignedQuote.fields).type}
    (fits : cursor.underlyingBuffer.Fits memory) (signedQuote : SgxSignedQuote)
    (covers : cursor.bytes memory = signedQuote.bytes) :
    ∃ inner, cursor.get memory SgxSignedQuote.quoteField = .ok inner ∧
      inner.bytes memory = signedQuote.quote.bytes := by
  have encodes := SgxSignedQuote.encodes_iff.mpr signedQuote.sized
  rw [FieldType.Encodes, FieldType.encodeEach_iff] at encodes
  obtain ⟨parts, encode, flat⟩ := encodes
  cases encode with
  | @cons _ quote _ others sized later =>
      have encode := List.Forall₂.cons sized later
      have holds : cursor.underlyingBuffer.remaining memory = (quote :: others).flatten ++ [] := by
        rw [List.append_nil, ← flat]
        exact covers
      obtain ⟨inner, got, -, bytes⟩ :=
        Cursor.covers_of_parts fits holds encode SgxSignedQuote.quoteField rfl
      refine ⟨inner, got, bytes.trans ?_⟩
      rw [FieldType.Encodes, FixedType.width, ← FixedType.layout_size,
        SgxQuote.layout_fields] at sized
      change quote = signedQuote.bytes.take SgxQuote.size
      rw [flat, List.flatten_cons, ← sized, List.take_left]

end Cursors

end Conclave.Attestation
