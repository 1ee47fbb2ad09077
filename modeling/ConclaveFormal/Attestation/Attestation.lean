import ConclaveFormal.Attestation.JsonTypes
import ConclaveFormal.Attestation.SgxTypes
import ConclaveFormal.Common.EnclaveConstraint
import ConclaveFormal.Enclave.SealedState

/-!
# Attestations

An attestation is of the EPID, the DCAP or the mock type.  Each type has a layout of its own; a
value of the hardware types exists only for bytes that have been verified.
-/

set_option autoImplicit false
set_option linter.dupNamespace false

namespace Conclave.Attestation

open Conclave.Lib BufferReader Conclave.Enclave

inductive EnclaveMode where
  | RELEASE
  | DEBUG
  | SIMULATION
  | MOCK
  deriving DecidableEq, Repr

/-- The bytes are those of `OpaqueBytes`. -/
structure QuoteCollateral where
  version : BitVec 32
  rawPckCrlIssuerChain : Bytes
  rawRootCaCrl : Bytes
  rawPckCrl : Bytes
  rawTcbInfoIssuerChain : Bytes
  rawSignedTcbInfo : Bytes
  rawQeIdentityIssuerChain : Bytes
  rawSignedQeIdentity : Bytes
  deriving DecidableEq

inductive EpidQuoteStatus where
  | OK
  | SIGNATURE_INVALID
  | GROUP_REVOKED
  | SIGNATURE_REVOKED
  | KEY_REVOKED
  | SIGRL_VERSION_MISMATCH
  | GROUP_OUT_OF_DATE
  | CONFIGURATION_NEEDED
  | SW_HARDENING_NEEDED
  | CONFIGURATION_AND_SW_HARDENING_NEEDED
  deriving DecidableEq, Repr

structure EpidVerificationReport where
  isvEnclaveQuoteStatus : EpidQuoteStatus
  isvEnclaveQuoteBody : Cursor SgxQuote
  timestamp : Instant
  version : Int

/-- The keys, the certificates and the verification of signatures.  `verifyQuote` gives the time of
issue and the status, which is a `TcbStatus` where the quote could be verified. -/
structure Platform where
  PublicKey : Type
  CertPath : Type
  encoded : PublicKey → Bytes
  decodePublicKey : Bytes → Option PublicKey
  encodedCertPath : CertPath → Bytes
  generateCertPath : Bytes → Option CertPath
  digit : UInt16 → Option Nat
  sha512 : Bytes → Bytes
  validates : CertPath → Bytes → Bytes → Bool
  readReport : Bytes → Option EpidVerificationReport
  verifyQuote : Bytes → QuoteCollateral → Option (Instant × Option TcbStatus)

/-- What is encoded decodes to an equal object, and the ASCII digits are digits. -/
structure Platform.Lawful (P : Platform) : Prop where
  decodePublicKey_encoded : ∀ key, P.decodePublicKey (P.encoded key) = some key
  generateCertPath_encoded : ∀ path, P.generateCertPath (P.encodedCertPath path) = some path
  readsAscii : ReadsAscii P.digit

/-! ## Quote collateral -/

namespace QuoteCollateral

variable (P : Platform)

/-- The version is a string, as it was in earlier releases. -/
def serialiseTo (collateral : QuoteCollateral) : Bytes :=
  writeIntLengthPrefixBytes (encodeUtf8 (intText collateral.version.toInt)) ++
    (writeIntLengthPrefixBytes collateral.rawPckCrlIssuerChain ++
    (writeIntLengthPrefixBytes collateral.rawRootCaCrl ++
    (writeIntLengthPrefixBytes collateral.rawPckCrl ++
    (writeIntLengthPrefixBytes collateral.rawTcbInfoIssuerChain ++
    (writeIntLengthPrefixBytes collateral.rawSignedTcbInfo ++
    (writeIntLengthPrefixBytes collateral.rawQeIdentityIssuerChain ++
    writeIntLengthPrefixBytes collateral.rawSignedQeIdentity))))))

def toInt (text : JString) : BufferReader (BitVec 32) :=
  match parseInt P.digit text with
  | none => BufferReader.throw .illegalArgument
  | some value => pure (BitVec.ofInt 32 value)

def getFromBuffer : BufferReader QuoteCollateral := do
  let text ← getIntLengthPrefixString
  let version ← toInt P text
  let rawPckCrlIssuerChain ← getIntLengthPrefixBytes
  let rawRootCaCrl ← getIntLengthPrefixBytes
  let rawPckCrl ← getIntLengthPrefixBytes
  let rawTcbInfoIssuerChain ← getIntLengthPrefixBytes
  let rawSignedTcbInfo ← getIntLengthPrefixBytes
  let rawQeIdentityIssuerChain ← getIntLengthPrefixBytes
  let rawSignedQeIdentity ← getIntLengthPrefixBytes
  return ⟨version, rawPckCrlIssuerChain, rawRootCaCrl, rawPckCrl, rawTcbInfoIssuerChain,
    rawSignedTcbInfo, rawQeIdentityIssuerChain, rawSignedQeIdentity⟩

end QuoteCollateral

/-! ## The three types -/

section Types

variable (P : Platform)

/-- The checks of the constructor. -/
def EpidAttestation.verify (reportBytes signature : Bytes) (certPath : P.CertPath) :
    Option EpidVerificationReport :=
  if P.validates certPath reportBytes signature then
    (P.readReport reportBytes).bind fun report =>
      if report.version = 4 then some report else none
  else none

structure EpidAttestation where
  reportBytes : Bytes
  signature : Bytes
  certPath : P.CertPath
  report : EpidVerificationReport
  verified : EpidAttestation.verify P reportBytes signature certPath = some report

structure DcapAttestation where
  signedQuote : SgxSignedQuote
  collateral : QuoteCollateral
  timestamp : Instant
  verificationStatus : Option TcbStatus
  verified : P.verifyQuote signedQuote.bytes collateral = some (timestamp, verificationStatus)

structure MockAttestation where
  timestamp : Instant
  reportBody : Cursor SgxReportBody
  isSimulation : Bool

inductive Attestation where
  | epid (attestation : EpidAttestation P)
  | dcap (attestation : DcapAttestation P)
  | mock (attestation : MockAttestation)

end Types

variable {P : Platform}

namespace EpidAttestation

/-- The constructor. -/
def new (reportBytes signature : Bytes) (certPath : P.CertPath) : Option (EpidAttestation P) :=
  match verified : verify P reportBytes signature certPath with
  | none => none
  | some report => some ⟨reportBytes, signature, certPath, report, verified⟩

theorem new_self (attestation : EpidAttestation P) :
    new attestation.reportBytes attestation.signature attestation.certPath = some attestation := by
  obtain ⟨reportBytes, signature, certPath, report, verified⟩ := attestation
  rw [new]
  split
  · rename_i rejected
    rw [verified] at rejected
    cases rejected
  · rename_i other accepted
    have same : other = report := Option.some.inj (accepted.symm.trans verified)
    subst same
    rfl

def serialise (attestation : EpidAttestation P) : Bytes :=
  writeIntLengthPrefixBytes attestation.reportBytes ++
    (writeIntLengthPrefixBytes attestation.signature ++
    writeIntLengthPrefixBytes (P.encodedCertPath attestation.certPath))

variable (P)

def getFromBuffer : BufferReader (EpidAttestation P) := do
  let reportBytes ← getIntLengthPrefixBytes
  let signature ← getIntLengthPrefixBytes
  let slice ← getIntLengthPrefixSlice
  let certPath ← ofOption (P.generateCertPath slice)
  ofOption (new reportBytes signature certPath)

end EpidAttestation

namespace DcapAttestation

def new (signedQuote : SgxSignedQuote) (collateral : QuoteCollateral) :
    Option (DcapAttestation P) :=
  match verified : P.verifyQuote signedQuote.bytes collateral with
  | none => none
  | some (timestamp, status) => some ⟨signedQuote, collateral, timestamp, status, verified⟩

theorem new_self (attestation : DcapAttestation P) :
    new attestation.signedQuote attestation.collateral = some attestation := by
  obtain ⟨signedQuote, collateral, timestamp, status, verified⟩ := attestation
  rw [new]
  split
  · rename_i rejected
    rw [verified] at rejected
    cases rejected
  · rename_i time other accepted
    have same := Option.some.inj (accepted.symm.trans verified)
    cases same
    rfl

def serialise (attestation : DcapAttestation P) : Bytes :=
  attestation.signedQuote.bytes ++ attestation.collateral.serialiseTo

variable (P)

def getFromBuffer : BufferReader (DcapAttestation P) := do
  let signedQuote ← SgxSignedQuote.copy
  let collateral ← QuoteCollateral.getFromBuffer P
  ofOption (new signedQuote collateral)

end DcapAttestation

namespace MockAttestation

def serialise (attestation : MockAttestation) : Bytes :=
  bigEndian 8 (BitVec.ofInt 64 attestation.timestamp.epochSecond).toNat ++
    (writeInt attestation.timestamp.nano ++ (attestation.reportBody.bytes ++
    [if attestation.isSimulation then 1 else 0]))

def getFromBuffer : BufferReader MockAttestation := do
  let epochSecond ← getLong
  let nano ← BufferReader.getInt
  let reportBody ← copyReportBody
  let isSimulation ← getBoolean
  let timestamp ← ofOption (Instant.ofEpochSecond epochSecond.toInt nano)
  return ⟨timestamp, reportBody, isSimulation⟩

end MockAttestation

namespace Attestation

def type : Attestation P → UInt8
  | epid _ => 0
  | dcap _ => 1
  | mock _ => 2

def serialise : Attestation P → Bytes
  | epid attestation => attestation.serialise
  | dcap attestation => attestation.serialise
  | mock attestation => attestation.serialise

def writeTo (attestation : Attestation P) : Bytes :=
  attestation.type :: writeIntLengthPrefixBytes attestation.serialise

def timestamp : Attestation P → Instant
  | epid attestation => attestation.report.timestamp
  | dcap attestation => attestation.timestamp
  | mock attestation => attestation.timestamp

def reportBody : Attestation P → Cursor SgxReportBody
  | epid attestation =>
      attestation.report.isvEnclaveQuoteBody.field SgxQuote.reportBody SgxReportBody
        SgxQuote.has_reportBody
  | dcap attestation =>
      attestation.signedQuote.quote.field SgxQuote.reportBody SgxReportBody
        SgxQuote.has_reportBody
  | mock attestation => attestation.reportBody

/-- Whether the flag `DEBUG` is set. -/
def isDebug (reportBody : Cursor SgxReportBody) : Bool :=
  ofLittleEndian ((reportBody.get SgxReportBody.attributes).take 8) / 2 % 2 == 1

def enclaveMode (attestation : Attestation P) : EnclaveMode :=
  match attestation with
  | mock attestation => if attestation.isSimulation then .SIMULATION else .MOCK
  | epid _ | dcap _ => if isDebug attestation.reportBody then .DEBUG else .RELEASE

end Attestation

def EpidQuoteStatus.hardwareSecuritySummary : EpidQuoteStatus → Common.Summary
  | OK => .SECURE
  | GROUP_OUT_OF_DATE | CONFIGURATION_NEEDED | SW_HARDENING_NEEDED
  | CONFIGURATION_AND_SW_HARDENING_NEEDED => .STALE
  | SIGNATURE_INVALID | GROUP_REVOKED | SIGNATURE_REVOKED | KEY_REVOKED
  | SIGRL_VERSION_MISMATCH => .INSECURE

def DcapAttestation.hardwareSecuritySummary (attestation : DcapAttestation P) : Common.Summary :=
  match attestation.verificationStatus with
  | none => .INSECURE
  | some .UpToDate => .SECURE
  | some .Revoked => .INSECURE
  | some _ => .STALE

namespace Attestation

/-- Insecure outside the release mode. -/
def securitySummary (attestation : Attestation P) : Common.Summary :=
  match attestation with
  | mock _ => .INSECURE
  | epid hardware =>
      if attestation.enclaveMode = .RELEASE then
        hardware.report.isvEnclaveQuoteStatus.hardwareSecuritySummary
      else .INSECURE
  | dcap hardware =>
      if attestation.enclaveMode = .RELEASE then hardware.hardwareSecuritySummary else .INSECURE

variable (P)

def ofType (type : UInt8) : BufferReader (Attestation P) :=
  if type = 0 then do
    let attestation ← EpidAttestation.getFromBuffer P
    return epid attestation
  else if type = 1 then do
    let attestation ← DcapAttestation.getFromBuffer P
    return dcap attestation
  else if type = 2 then do
    let attestation ← MockAttestation.getFromBuffer
    return mock attestation
  else BufferReader.throw .illegalArgument

/-- The type is not looked at before the slice has been taken. -/
def getFromBuffer : BufferReader (Attestation P) := do
  let type ← getByte
  let attestationSlice ← getIntLengthPrefixSlice
  within attestationSlice (ofType P type)

end Attestation

/-! ## Reading back -/

theorem ascii_natText (value : Nat) : Ascii (natText value) := by
  obtain ⟨digits, text, _, small, _⟩ := natText_digits value
  intro unit member
  rw [text] at member
  obtain ⟨digit, inDigits, rfl⟩ := List.mem_map.mp member
  have range := small digit inDigits
  interval_cases digit <;> decide

theorem ascii_intText (value : Int) : Ascii (intText value) := by
  rw [intText]
  split
  · intro unit member
    rcases List.mem_cons.mp member with rfl | inText
    · decide
    · exact ascii_natText _ unit inText
  · exact ascii_natText _

theorem QuoteCollateral.reads_toInt (lawful : P.Lawful) (version : BitVec 32) :
    Reads (toInt P (intText version.toInt)) [] version := by
  have fits : IsInt32 version.toInt := by
    have low := version.le_toInt
    have high := version.toInt_lt
    exact ⟨by omega, by omega⟩
  have same := Reads.pure (BitVec.ofInt 32 version.toInt)
  rw [BitVec.ofInt_toInt] at same
  rw [toInt, parseInt_intText lawful.readsAscii fits]
  simpa only [BitVec.ofInt_toInt] using same

theorem QuoteCollateral.reads_getFromBuffer (lawful : P.Lawful) (collateral : QuoteCollateral)
    (small : collateral.serialiseTo.length < 2 ^ 31) :
    Reads (getFromBuffer P) collateral.serialiseTo collateral := by
  simp only [serialiseTo, List.length_append, length_writeIntLengthPrefixBytes] at small
  have version : (encodeUtf8 (intText collateral.version.toInt)).length < 2 ^ 31 := by omega
  have text := Reads.getIntLengthPrefixString version
  rw [decodeUtf8_encodeUtf8_ascii (ascii_intText _)] at text
  refine text.bind (Reads.bind_nil (reads_toInt lawful collateral.version) ?_)
  refine (Reads.getIntLengthPrefixBytes (by omega)).bind ?_
  refine (Reads.getIntLengthPrefixBytes (by omega)).bind ?_
  refine (Reads.getIntLengthPrefixBytes (by omega)).bind ?_
  refine (Reads.getIntLengthPrefixBytes (by omega)).bind ?_
  refine (Reads.getIntLengthPrefixBytes (by omega)).bind ?_
  refine (Reads.getIntLengthPrefixBytes (by omega)).bind ?_
  exact (Reads.getIntLengthPrefixBytes (by omega)).map _

theorem EpidAttestation.reads_getFromBuffer (lawful : P.Lawful) (attestation : EpidAttestation P)
    (small : attestation.serialise.length < 2 ^ 31) :
    Reads (getFromBuffer P) attestation.serialise attestation := by
  simp only [serialise, List.length_append, length_writeIntLengthPrefixBytes] at small
  have path := Reads.ofOption (lawful.generateCertPath_encoded attestation.certPath)
  refine (Reads.getIntLengthPrefixBytes (by omega)).bind ?_
  refine (Reads.getIntLengthPrefixBytes (by omega)).bind ?_
  refine (Reads.getIntLengthPrefixSlice (by omega)).bind_last ?_
  exact path.bind_nil (Reads.ofOption attestation.new_self)

theorem DcapAttestation.reads_getFromBuffer (lawful : P.Lawful) (attestation : DcapAttestation P)
    (small : attestation.serialise.length < 2 ^ 31) :
    Reads (getFromBuffer P) attestation.serialise attestation := by
  simp only [serialise, List.length_append] at small
  refine (SgxSignedQuote.reads_copy attestation.signedQuote).bind ?_
  refine (attestation.collateral.reads_getFromBuffer lawful (by omega)).bind_last ?_
  exact Reads.ofOption attestation.new_self

theorem MockAttestation.reads_getFromBuffer (attestation : MockAttestation) :
    Reads getFromBuffer attestation.serialise attestation := by
  have nano : attestation.timestamp.nano < 2 ^ 31 := by
    have := attestation.timestamp.nanos
    omega
  have instant : Instant.ofEpochSecond
      (BitVec.ofInt 64 attestation.timestamp.epochSecond).toInt attestation.timestamp.nano =
      some attestation.timestamp := by
    rw [toInt_epochSecond, Instant.ofEpochSecond_self]
  refine (Reads.getLong _).bind ((Reads.getInt nano).bind ?_)
  refine (reads_copyReportBody attestation.reportBody).bind ?_
  refine (Reads.getBoolean attestation.isSimulation).bind_last ?_
  exact (Reads.ofOption instant).map _

namespace Attestation

theorem reads_ofType (lawful : P.Lawful) (attestation : Attestation P)
    (small : attestation.serialise.length < 2 ^ 31) :
    Reads (ofType P attestation.type) attestation.serialise attestation := by
  cases attestation with
  | epid attestation => exact (attestation.reads_getFromBuffer lawful small).map epid
  | dcap attestation => exact (attestation.reads_getFromBuffer lawful small).map dcap
  | mock attestation => exact attestation.reads_getFromBuffer.map mock

theorem reads_getFromBuffer (lawful : P.Lawful) (attestation : Attestation P)
    (small : attestation.serialise.length < 2 ^ 31) :
    Reads (getFromBuffer P) attestation.writeTo attestation := by
  have parsed := reads_ofType lawful attestation small []
  rw [List.append_nil] at parsed
  refine (Reads.getByte attestation.type).bind ?_
  exact (Reads.getIntLengthPrefixSlice small).bind_last (Reads.within parsed)

/-- The slice is the last that is taken. -/
theorem short_getFromBuffer (attestation : Attestation P)
    (small : attestation.serialise.length < 2 ^ 31) :
    Short (getFromBuffer P) attestation.writeTo := by
  have slice := (Short.getIntLengthPrefixSlice small).bind_last
    fun slice => within slice (ofType P attestation.type)
  exact (Short.getByte attestation.type).bind (Reads.getByte attestation.type) slice

end Attestation

end Conclave.Attestation
