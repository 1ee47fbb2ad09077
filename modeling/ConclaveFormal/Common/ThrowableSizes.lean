import ConclaveFormal.Common.ThrowableDeserialisation

/-!
# How many bytes an exception comes to

An exception is written exactly if the encoded form of each of its texts has at most 65535 bytes.
-/

set_option autoImplicit false

namespace Conclave.Common.ThrowableSerialisation

open Conclave.Lib Conclave.Lib.Json

/-! ## The texts and the size -/

/-- The sixteen bits for the number of encoded bytes are enough. -/
def StringFits (text : JString) : Prop := (encodeUtf text).length ≤ 65535

instance (text : JString) : Decidable (StringFits text) :=
  inferInstanceAs (Decidable ((encodeUtf text).length ≤ 65535))

def stringSize (text : JString) : Nat := 2 + (encodeUtf text).length

def nullableSize : Option JString → Nat
  | none => 1
  | some text => 1 + stringSize text

def elementSize (element : StackTraceElement) : Nat :=
  stringSize element.className + stringSize element.methodName + nullableSize element.fileName + 4

mutual

def chainSize : Throwable → Nat
  | .mk className message stackTrace cause suppressed =>
      causeSize cause + (stringSize className + (nullableSize message +
        (4 + (stackTrace.map elementSize).sum + (4 + suppressedSize suppressed))))

def causeSize : Option Throwable → Nat
  | none => 0
  | some cause => chainSize cause

def suppressedSize : List Throwable → Nat
  | [] => 0
  | first :: rest => 4 + chainSize first + suppressedSize rest

end

/-- The bytes that a root and all below it come to. -/
def serialisedSize (tree : Throwable) : Nat := 4 + chainSize tree

structure ElementFits (element : StackTraceElement) : Prop where
  className : StringFits element.className
  methodName : StringFits element.methodName
  fileName : ∀ text ∈ element.fileName, StringFits text

/-- What fits is written, and nothing else, in a known number of bytes. -/
structure Sized {α : Type} (write : α → Except SerialiseError Bytes) (fits : α → Prop)
    (size : α → Nat) (value : α) : Prop where
  writes : fits value → ∃ bytes, write value = .ok bytes
  written : ∀ {bytes}, write value = .ok bytes → fits value ∧ bytes.length = size value

theorem sized_writeString (text : JString) : Sized writeString StringFits stringSize text where
  writes fits := by
    refine ⟨bigEndian 2 (encodeUtf text).length ++ encodeUtf text, mapError_eq_ok.mpr ?_⟩
    exact if_neg (Nat.not_lt_of_le fits)
  written {bytes} written := by
    have encoded := mapError_eq_ok.mp written
    refine ⟨?_, writeUTF_length encoded⟩
    by_contra long
    rw [writeUTF, if_pos (Nat.lt_of_not_le long)] at encoded
    cases encoded

theorem writeString_length_le {text : JString} {bytes : Bytes}
    (written : writeString text = .ok bytes) : bytes.length ≤ 65537 := by
  obtain ⟨fits, size⟩ := (sized_writeString text).written written
  have encoded : (encodeUtf text).length ≤ 65535 := fits
  rw [size, stringSize]
  omega

theorem sized_writeNullableString (text : Option JString) :
    Sized writeNullableString (fun text => ∀ content ∈ text, StringFits content) nullableSize
      text := by
  cases text with
  | none =>
      refine ⟨fun _ => ⟨[1], rfl⟩, ?_⟩
      intro bytes written
      cases written
      exact ⟨by simp, rfl⟩
  | some text =>
      refine ⟨?_, ?_⟩
      · intro fits
        obtain ⟨bytes, written⟩ := (sized_writeString text).writes (fits text rfl)
        exact ⟨0 :: bytes, by rw [writeNullableString, written]; rfl⟩
      · intro bytes written
        obtain ⟨encoded, writtenText, rfl⟩ := map_eq_ok written
        obtain ⟨fits, length⟩ := (sized_writeString text).written writtenText
        refine ⟨?_, ?_⟩
        · intro content same
          cases same
          exact fits
        · rw [List.length_cons, length, nullableSize, Nat.add_comm]

theorem sized_writeElement (element : StackTraceElement) :
    Sized writeElement ElementFits elementSize element where
  writes fits := by
    obtain ⟨className, writtenClass⟩ := (sized_writeString _).writes fits.className
    obtain ⟨methodName, writtenMethod⟩ := (sized_writeString _).writes fits.methodName
    obtain ⟨fileName, writtenFile⟩ := (sized_writeNullableString _).writes fits.fileName
    refine ⟨className ++ methodName ++ fileName ++ writeInt element.lineNumber.toNat, ?_⟩
    rw [writeElement, bind_of_ok writtenClass, bind_of_ok writtenMethod, bind_of_ok writtenFile]
    rfl
  written {bytes} written := by
    rw [writeElement] at written
    obtain ⟨className, writtenClass, written⟩ := bind_eq_ok written
    obtain ⟨methodName, writtenMethod, written⟩ := bind_eq_ok written
    obtain ⟨fileName, writtenFile, written⟩ := bind_eq_ok written
    cases written
    obtain ⟨classFits, classLength⟩ := (sized_writeString _).written writtenClass
    obtain ⟨methodFits, methodLength⟩ := (sized_writeString _).written writtenMethod
    obtain ⟨fileFits, fileLength⟩ := (sized_writeNullableString _).written writtenFile
    refine ⟨⟨classFits, methodFits, fileFits⟩, ?_⟩
    simp only [List.length_append, length_writeInt, classLength, methodLength, fileLength,
      elementSize]

theorem sized_writeElements (elements : List StackTraceElement) :
    Sized writeElements (fun elements => ∀ element ∈ elements, ElementFits element)
      (fun elements => (elements.map elementSize).sum) elements := by
  induction elements with
  | nil =>
      refine ⟨fun _ => ⟨[], rfl⟩, ?_⟩
      intro bytes written
      cases written
      exact ⟨by simp, rfl⟩
  | cons element elements ih =>
      refine ⟨?_, ?_⟩
      · intro fits
        obtain ⟨first, writtenFirst⟩ :=
          (sized_writeElement element).writes (fits element List.mem_cons_self)
        obtain ⟨later, writtenLater⟩ :=
          ih.writes fun other member => fits other (List.mem_cons_of_mem element member)
        refine ⟨first ++ later, ?_⟩
        rw [writeElements, bind_of_ok writtenFirst, bind_of_ok writtenLater]
        rfl
      · intro bytes written
        rw [writeElements] at written
        obtain ⟨first, writtenFirst, written⟩ := bind_eq_ok written
        obtain ⟨later, writtenLater, written⟩ := bind_eq_ok written
        cases written
        obtain ⟨firstFits, firstLength⟩ := (sized_writeElement element).written writtenFirst
        obtain ⟨laterFit, laterLength⟩ := ih.written writtenLater
        refine ⟨List.forall_mem_cons.mpr ⟨firstFits, laterFit⟩, ?_⟩
        rw [List.length_append, firstLength, laterLength, List.map_cons, List.sum_cons]

/-! ## Which trees can be written -/

theorem chainSize_eq {tree : Throwable} {bytes : Bytes} (written : writeChain tree = .ok bytes) :
    bytes.length = chainSize tree := by
  induction tree using Throwable.induction (Q := fun trees =>
    ∀ bytes, writeSuppressed trees = .ok bytes → bytes.length = suppressedSize trees)
    generalizing bytes with
  | root className message stackTrace suppressed ofSuppressed =>
      obtain ⟨before, name, text, elements, chains, writtenCauses, writtenName, writtenText,
        writtenElements, writtenChains, rfl⟩ := writeChain_eq_ok written
      cases writtenCauses
      simp only [List.length_append, length_writeInt, List.length_nil, chainSize, causeSize,
        ((sized_writeString _).written writtenName).2,
        ((sized_writeNullableString _).written writtenText).2,
        ((sized_writeElements _).written writtenElements).2, ofSuppressed chains writtenChains]
  | caused className message stackTrace cause suppressed ofCause ofSuppressed =>
      obtain ⟨before, name, text, elements, chains, writtenCauses, writtenName, writtenText,
        writtenElements, writtenChains, rfl⟩ := writeChain_eq_ok written
      simp only [List.length_append, length_writeInt, chainSize, causeSize,
        ofCause writtenCauses, ((sized_writeString _).written writtenName).2,
        ((sized_writeNullableString _).written writtenText).2,
        ((sized_writeElements _).written writtenElements).2, ofSuppressed chains writtenChains]
  | nil bytes written =>
      cases written
      rfl
  | cons first rest ofFirst ofRest bytes written =>
      rw [writeSuppressed] at written
      obtain ⟨chain, writtenChain, written⟩ := bind_eq_ok written
      obtain ⟨later, writtenLater, written⟩ := bind_eq_ok written
      cases written
      simp only [List.length_append, length_writeInt, suppressedSize, ofFirst writtenChain,
        ofRest later writtenLater]

end Conclave.Common.ThrowableSerialisation
