import ConclaveFormal.Common.MailKeyDerivation

/-!
# Key derivation headers

What `serialise` writes is read back as the same key derivation.  The reader takes eighteen bytes
for an abandoned kind of header, so the writer pads what would come out at that size.
-/

set_option autoImplicit false

namespace Conclave.Common

open Conclave.Lib Conclave.Mail

namespace MasterKeyType

theorem reads_fromID (masterKeyType : MasterKeyType) :
    Reads (fromID masterKeyType.id) [] masterKeyType := by
  cases masterKeyType with
  | DEVELOPMENT => exact Reads.pure _
  | CLUSTER => exact Reads.pure _
  | AZURE_HSM => exact Reads.pure _

end MasterKeyType

namespace KDSKeySpec

variable (digit : UInt16 → Option Nat)

/-- What the constructor insists on. -/
def Constructed (keySpec : KDSKeySpec) : Prop :=
  ∃ constraint, EnclaveConstraint.parse digit keySpec.policyConstraint true = .ok constraint

variable {digit}

theorem reads_new {keySpec : KDSKeySpec} (constructed : keySpec.Constructed digit) :
    Reads (new digit keySpec.name keySpec.masterKeyType keySpec.policyConstraint) [] keySpec := by
  obtain ⟨constraint, parsed⟩ := constructed
  rw [new, parsed]
  exact Reads.pure keySpec

/-- `writeIntLengthPrefixString` for the texts and `writeByte` for the ID. -/
def write (keySpec : KDSKeySpec) : Bytes :=
  writeIntLengthPrefixBytes (encodeUtf8 keySpec.name) ++
    (keySpec.masterKeyType.id :: writeIntLengthPrefixBytes (encodeUtf8 keySpec.policyConstraint))

theorem reads_write {keySpec : KDSKeySpec} (constructed : keySpec.Constructed digit)
    (validName : ValidUnicode keySpec.name)
    (validConstraint : ValidUnicode keySpec.policyConstraint)
    (fits : keySpec.write.length < 2 ^ 31) :
    Reads (getFromBuffer digit) keySpec.write keySpec := by
  simp only [write, List.length_append, List.length_cons, length_writeIntLengthPrefixBytes] at fits
  have name := Reads.getIntLengthPrefixString
    (by omega : (encodeUtf8 keySpec.name).length < 2 ^ 31)
  have policyConstraint := Reads.getIntLengthPrefixString
    (by omega : (encodeUtf8 keySpec.policyConstraint).length < 2 ^ 31)
  rw [decodeUtf8_encodeUtf8 validName] at name
  rw [decodeUtf8_encodeUtf8 validConstraint] at policyConstraint
  refine name.bind ?_
  refine (Reads.getByte keySpec.masterKeyType.id).bind ?_
  refine Reads.bind_nil (MasterKeyType.reads_fromID keySpec.masterKeyType) ?_
  exact policyConstraint.bind_last (reads_new constructed)

end KDSKeySpec

namespace MailKeyDerivation

def type : MailKeyDerivation → UInt8
  | randomSession => RANDOM_SESSION_TYPE
  | kdsKeySpec _ => KDS_KEY_SPEC_TYPE

/-- `DataOutputStream.size()`, a counter that stays at its maximum. -/
def streamSize (written : Bytes) : Nat := min written.length 2147483647

/-- What `serialise` adds to the bytes of the stream. -/
def serialiseInto (written : Bytes) : MailKeyDerivation → Bytes
  | randomSession => written
  | kdsKeySpec keySpec =>
      let written := written ++ keySpec.write
      if streamSize written = ABANDONED_MRSIGNER_SIZE then written ++ [0] else written

def output (derivation : MailKeyDerivation) : Bytes := derivation.serialiseInto [derivation.type]

/-- `none` where the array runs out of memory. -/
def serialise (derivation : MailKeyDerivation) : Option Bytes :=
  if derivation.output.length ≤ 2147483647 then some derivation.output else none

variable {digit : UInt16 → Option Nat}

variable (digit) in
def Valid : MailKeyDerivation → Prop
  | randomSession => True
  | kdsKeySpec keySpec =>
      keySpec.Constructed digit ∧ ValidUnicode keySpec.name ∧ ValidUnicode keySpec.policyConstraint

theorem serialise_eq_some {derivation : MailKeyDerivation} {bytes : Bytes}
    (serialised : derivation.serialise = some bytes) :
    bytes = derivation.output ∧ derivation.output.length ≤ 2147483647 := by
  unfold serialise at serialised
  by_cases fits : derivation.output.length ≤ 2147483647
  · rw [if_pos fits] at serialised
    cases serialised
    exact ⟨rfl, fits⟩
  · rw [if_neg fits] at serialised
    cases serialised

theorem serialise_eq_none {derivation : MailKeyDerivation}
    (failed : derivation.serialise = none) : 2147483647 < derivation.output.length := by
  unfold serialise at failed
  by_cases fits : derivation.output.length ≤ 2147483647
  · rw [if_pos fits] at failed
    cases failed
  · omega

/-- The padding comes after everything that is read. -/
theorem output_kdsKeySpec (keySpec : KDSKeySpec) :
    ∃ padding : Bytes,
      (kdsKeySpec keySpec).output = (KDS_KEY_SPEC_TYPE :: keySpec.write) ++ padding ∧
        (kdsKeySpec keySpec).output.length ≠ ABANDONED_MRSIGNER_SIZE := by
  have unpadded : [(kdsKeySpec keySpec).type] ++ keySpec.write =
      KDS_KEY_SPEC_TYPE :: keySpec.write := rfl
  rw [output, serialiseInto, unpadded]
  by_cases clash : streamSize (KDS_KEY_SPEC_TYPE :: keySpec.write) = ABANDONED_MRSIGNER_SIZE
  · simp only [if_pos clash]
    refine ⟨[0], rfl, ?_⟩
    simp only [streamSize, ABANDONED_MRSIGNER_SIZE] at clash ⊢
    rw [List.length_append, List.length_singleton]
    omega
  · simp only [if_neg clash]
    refine ⟨[], (List.append_nil _).symm, ?_⟩
    simp only [streamSize, ABANDONED_MRSIGNER_SIZE] at clash ⊢
    omega

theorem deserialiseFromHeader_kdsKeySpec {keySpec : KDSKeySpec}
    (valid : (kdsKeySpec keySpec).Valid digit)
    (fits : (kdsKeySpec keySpec).output.length ≤ 2147483647) :
    deserialiseFromHeader digit (some (kdsKeySpec keySpec).output) = .ok (kdsKeySpec keySpec) := by
  obtain ⟨constructed, validName, validConstraint⟩ := valid
  obtain ⟨padding, split, notAbandoned⟩ := output_kdsKeySpec keySpec
  have small : keySpec.write.length < 2 ^ 31 := by
    rw [split, List.length_append, List.length_cons] at fits
    omega
  have reads : Reads (getFromBuffer digit) (KDS_KEY_SPEC_TYPE :: keySpec.write)
      (KDS_KEY_SPEC_TYPE, some (kdsKeySpec keySpec)) := by
    have ofType : Reads (ofType digit KDS_KEY_SPEC_TYPE) keySpec.write
        (some (kdsKeySpec keySpec)) :=
      (KDSKeySpec.reads_write constructed validName validConstraint small).map _
    exact (Reads.getByte KDS_KEY_SPEC_TYPE).bind (ofType.map _)
  rw [deserialiseFromHeader, if_neg notAbandoned, split, deserialise, reads padding]

theorem deserialise_serialise {derivation : MailKeyDerivation} (valid : derivation.Valid digit) :
    (∀ bytes, derivation.serialise = some bytes →
      deserialiseFromHeader digit (some bytes) = .ok derivation ∧
        (derivation ≠ randomSession → bytes.length ≠ ABANDONED_MRSIGNER_SIZE)) ∧
      (derivation.serialise = none → 2147483647 < derivation.output.length) := by
  refine ⟨?_, serialise_eq_none⟩
  intro bytes serialised
  obtain ⟨same, fits⟩ := serialise_eq_some serialised
  rw [same]
  cases derivation with
  | randomSession => exact ⟨rfl, fun different => absurd rfl different⟩
  | kdsKeySpec keySpec =>
      obtain ⟨_, _, notAbandoned⟩ := output_kdsKeySpec keySpec
      exact ⟨deserialiseFromHeader_kdsKeySpec valid fits, fun _ => notAbandoned⟩

/-! ## A name of two, three and four bytes a character -/

theorem zeroCodeHash_size : (List.replicate 32 (0 : UInt8)).length = 32 ∨
    (List.replicate 32 (0 : UInt8)).length = 64 :=
  Or.inl List.length_replicate

def zeroCodeHash : SecureHash := ⟨List.replicate 32 0, zeroCodeHash_size⟩

def oneCodeHash : EnclaveConstraint where
  acceptableCodeHashes := [zeroCodeHash]
  acceptableSigners := []
  productID := none
  minRevocationLevel := none
  minSecurityLevel := .INSECURE
  maxAttestationAge := none

def namedKeySpec : KDSKeySpec :=
  ⟨[0xE9, 0x20AC, 0xD83D, 0xDE00], .CLUSTER, oneCodeHash.text⟩

theorem namedKeySpec_valid : (kdsKeySpec namedKeySpec).Valid asciiDigit := by
  refine ⟨⟨oneCodeHash.reparsed, ?_⟩, ?_, ?_⟩
  · rw [namedKeySpec, EnclaveConstraint.parse_text asciiDigit_readsAscii]
    rfl
  · exact .basic rfl (.basic rfl (.pair rfl rfl .nil))
  · have ascii : oneCodeHash.text.all (fun unit => unit.toNat < 0x80) = true := by
      decide +kernel
    refine Ascii.valid fun unit member => ?_
    exact of_decide_eq_true (List.all_eq_true.mp ascii unit member)

theorem deserialise_serialise_namedKeySpec :
    (kdsKeySpec namedKeySpec).serialise.isSome = true ∧
      ∀ bytes, (kdsKeySpec namedKeySpec).serialise = some bytes →
        deserialiseFromHeader asciiDigit (some bytes) = .ok (kdsKeySpec namedKeySpec) ∧
          (kdsKeySpec namedKeySpec ≠ randomSession → bytes.length ≠ ABANDONED_MRSIGNER_SIZE) :=
  ⟨by decide +kernel, (deserialise_serialise namedKeySpec_valid).1⟩

end MailKeyDerivation

end Conclave.Common
