import ConclaveFormal.Attestation.Attestation

/-!
# Enclave instance infos

What a client knows of an enclave: its two keys and the attestation that vouches for them.  The
serialised form is read back whole or not at all.
-/

set_option autoImplicit false

namespace Conclave.Attestation

open Conclave.Lib BufferReader Conclave.Mail

variable (P : Platform)

/-- The hash of the keys is in the report data, and the revocation level, which is one below the
security version number, is not negative. -/
structure EnclaveInstanceInfoImpl where
  dataSigningKey : P.PublicKey
  encryptionKey : Curve25519PublicKey
  attestation : Attestation P
  reportDataMatches :
    P.sha512 (P.encoded dataSigningKey ++ encryptionKey.encoded) =
      attestation.reportBody.get SgxReportBody.reportData
  hasRevocationLevel : 1 ≤ ofLittleEndian (attestation.reportBody.get SgxReportBody.isvSvn)

variable {P}

namespace EnclaveInstanceInfoImpl

/-- The constructor. -/
def new (dataSigningKey : P.PublicKey) (encryptionKey : Curve25519PublicKey)
    (attestation : Attestation P) : BufferReader (EnclaveInstanceInfoImpl P) :=
  let reportBody := attestation.reportBody
  if reportData : P.sha512 (P.encoded dataSigningKey ++ encryptionKey.encoded) =
      reportBody.get SgxReportBody.reportData then
    if revocationLevel : 1 ≤ ofLittleEndian (reportBody.get SgxReportBody.isvSvn) then
      pure ⟨dataSigningKey, encryptionKey, attestation, reportData, revocationLevel⟩
    else BufferReader.throw .illegalArgument
  else BufferReader.throw .illegalArgument

def enclaveInfo (info : EnclaveInstanceInfoImpl P) : Common.EnclaveInfo :=
  let reportBody := info.attestation.reportBody
  { codeHash := ⟨reportBody.get SgxReportBody.mrenclave, Or.inl (reportBody.get_length rfl)⟩
    codeSigningKeyHash :=
      ⟨reportBody.get SgxReportBody.mrsigner, Or.inl (reportBody.get_length rfl)⟩
    productID := ofLittleEndian (reportBody.get SgxReportBody.isvProdId)
    revocationLevel := ofLittleEndian (reportBody.get SgxReportBody.isvSvn) - 1 }

end EnclaveInstanceInfoImpl

/-! ## The serialised form -/

/-- `EII` -/
def magic : Bytes := [0x45, 0x49, 0x49]

namespace EnclaveInstanceInfoImpl

def body (info : EnclaveInstanceInfoImpl P) : Bytes :=
  writeIntLengthPrefixBytes (P.encoded info.dataSigningKey) ++
    (writeIntLengthPrefixBytes info.encryptionKey.encoded ++ info.attestation.writeTo)

/-- The array ends at `Int.MAX_VALUE` bytes. -/
def serialize (info : EnclaveInstanceInfoImpl P) : Option Bytes :=
  let serialised := magic ++ info.body
  if serialised.length ≤ 2147483647 then some serialised else none

end EnclaveInstanceInfoImpl

/-- Each of them is an `IllegalArgumentException`. -/
inductive DeserializeError where
  | notEnclaveInstanceInfo
  | truncated
  | corrupted (cause : BufferError)
  deriving DecidableEq, Repr

def newCurve25519PublicKey (encoded : Bytes) : BufferReader Curve25519PublicKey :=
  if size : encoded.length = 32 then pure ⟨encoded, size⟩
  else BufferReader.throw .illegalArgument

variable (P)

/-- The body of the `try`. -/
def readEnclaveInstanceInfo : BufferReader (EnclaveInstanceInfoImpl P) := do
  let encodedSigningKey ← getIntLengthPrefixBytes
  let dataSigningKey ← ofOption (P.decodePublicKey encodedSigningKey)
  let encodedEncryptionKey ← getIntLengthPrefixBytes
  let encryptionKey ← newCurve25519PublicKey encodedEncryptionKey
  let attestation ← Attestation.getFromBuffer P
  EnclaveInstanceInfoImpl.new dataSigningKey encryptionKey attestation

def deserialize (buffer : Bytes) : Except DeserializeError (EnclaveInstanceInfoImpl P) :=
  if magic.length < buffer.length ∧ buffer.take magic.length = magic then
    match readEnclaveInstanceInfo P (buffer.drop magic.length) with
    | .ok (info, _) => .ok info
    | .error .bufferUnderflow => .error .truncated
    | .error e => .error (.corrupted e)
  else .error .notEnclaveInstanceInfo

variable {P}

theorem deserialize_ok {buffer rest : Bytes} {info : EnclaveInstanceInfoImpl P}
    (some_bytes : buffer ≠ []) (ran : readEnclaveInstanceInfo P buffer = .ok (info, rest)) :
    deserialize P (magic ++ buffer) = .ok info := by
  have longer : magic.length < (magic ++ buffer).length := by
    have := List.length_pos_iff.mpr some_bytes
    rw [List.length_append]
    omega
  rw [deserialize, if_pos ⟨longer, List.take_left⟩, List.drop_left, ran]

theorem deserialize_error {buffer : Bytes} {e : BufferError}
    (threw : readEnclaveInstanceInfo P buffer = .error e) :
    ∃ error, deserialize P (magic ++ buffer) = .error error := by
  rw [deserialize, List.take_left, List.drop_left, threw]
  split_ifs
  · cases e <;> exact ⟨_, rfl⟩
  · exact ⟨_, rfl⟩

/-! ## Reading back -/

namespace EnclaveInstanceInfoImpl

theorem reads_new (info : EnclaveInstanceInfoImpl P) :
    Reads (new info.dataSigningKey info.encryptionKey info.attestation) [] info := by
  intro rest
  rw [new, dif_pos info.reportDataMatches, dif_pos info.hasRevocationLevel]
  rfl

theorem reads_encryptionKey (info : EnclaveInstanceInfoImpl P) :
    Reads (newCurve25519PublicKey info.encryptionKey.encoded) [] info.encryptionKey := by
  intro rest
  rw [newCurve25519PublicKey, dif_pos info.encryptionKey.size]
  rfl

theorem body_lt {info : EnclaveInstanceInfoImpl P} {bytes : Bytes}
    (serialised : info.serialize = some bytes) :
    bytes = magic ++ info.body ∧ (P.encoded info.dataSigningKey).length < 2 ^ 31 ∧
      info.encryptionKey.encoded.length < 2 ^ 31 ∧
      info.attestation.serialise.length < 2 ^ 31 := by
  obtain ⟨fits, same⟩ := Option.ite_none_right_eq_some.mp serialised
  cases same
  simp only [body, Attestation.writeTo, List.length_append, List.length_cons,
    length_writeIntLengthPrefixBytes] at fits
  exact ⟨rfl, by omega, by omega, by omega⟩

variable (lawful : P.Lawful) {info : EnclaveInstanceInfoImpl P}
  (signingKey : (P.encoded info.dataSigningKey).length < 2 ^ 31)
  (encryptionKey : info.encryptionKey.encoded.length < 2 ^ 31)
  (attestation : info.attestation.serialise.length < 2 ^ 31)

include lawful signingKey encryptionKey attestation

theorem reads_body : Reads (readEnclaveInstanceInfo P) info.body info := by
  refine (Reads.getIntLengthPrefixBytes signingKey).bind ?_
  refine (Reads.ofOption (lawful.decodePublicKey_encoded _)).bind_nil ?_
  refine (Reads.getIntLengthPrefixBytes encryptionKey).bind ?_
  refine info.reads_encryptionKey.bind_nil ?_
  exact (Attestation.reads_getFromBuffer lawful _ attestation).bind_last info.reads_new

theorem short_body : Short (readEnclaveInstanceInfo P) info.body := by
  refine (Short.getIntLengthPrefixBytes signingKey).bind
    (Reads.getIntLengthPrefixBytes signingKey) ?_
  refine .bind_nil (Reads.ofOption (lawful.decodePublicKey_encoded _)) ?_
  refine (Short.getIntLengthPrefixBytes encryptionKey).bind
    (Reads.getIntLengthPrefixBytes encryptionKey) ?_
  refine .bind_nil info.reads_encryptionKey ?_
  exact (Attestation.short_getFromBuffer _ attestation).bind_last _

end EnclaveInstanceInfoImpl

theorem deserialize_short_magic {short : Bytes} (small : short.length ≤ magic.length) :
    deserialize P short = .error .notEnclaveInstanceInfo := by
  rw [deserialize, if_neg fun both => Nat.not_lt.mpr small both.1]

/-- What has been serialised is read back as it was, and none of it can be left out at the end. -/
theorem deserialize_serialize (lawful : P.Lawful) {info : EnclaveInstanceInfoImpl P}
    {bytes : Bytes} (serialised : info.serialize = some bytes) :
    deserialize P bytes = .ok info ∧
      ∀ short, short <+: bytes → short ≠ bytes → ∃ e, deserialize P short = .error e := by
  obtain ⟨rfl, signingKey, encryptionKey, attestation⟩ :=
    EnclaveInstanceInfoImpl.body_lt serialised
  constructor
  · have taken := EnclaveInstanceInfoImpl.reads_body lawful signingKey encryptionKey attestation []
    rw [List.append_nil] at taken
    refine deserialize_ok ?_ taken
    intro empty
    have length := congrArg List.length empty
    simp only [EnclaveInstanceInfoImpl.body, List.length_append,
      length_writeIntLengthPrefixBytes, List.length_nil] at length
    omega
  · intro short isPrefix proper
    rcases List.prefix_or_prefix_of_prefix isPrefix (List.prefix_append magic info.body) with
      within | beyond
    · exact ⟨_, deserialize_short_magic within.length_le⟩
    · obtain ⟨rest, rfl⟩ := beyond
      have inside := (List.prefix_append_right_inj magic).mp isPrefix
      have different : rest ≠ info.body := fun same => proper (by rw [same])
      obtain ⟨e, threw⟩ := EnclaveInstanceInfoImpl.short_body lawful signingKey encryptionKey
        attestation rest inside different
      exact deserialize_error threw

/-! ### An enclave in simulation mode -/

namespace Simulation

/-- The header of an Ed25519 key in the X.509 encoding. -/
def x509Header : Bytes := [0x30, 0x2a, 0x30, 0x05, 0x06, 0x03, 0x2b, 0x65, 0x70, 0x03, 0x21, 0x00]

abbrev Ed25519PublicKey : Type := { key : Bytes // key.length = 32 }

def decodePublicKey (encoded : Bytes) : Option Ed25519PublicKey :=
  if size : (encoded.drop 12).length = 32 then
    if encoded.take 12 = x509Header then some ⟨encoded.drop 12, size⟩ else none
  else none

def signingKey : Ed25519PublicKey :=
  ⟨[0xd7, 0x5a, 0x98, 0x01, 0x82, 0xb1, 0x0a, 0xb7, 0xd5, 0x4b, 0xfe, 0xd3, 0xc9, 0x64, 0x07, 0x3a,
    0x0e, 0xe1, 0x72, 0xf3, 0xda, 0xa6, 0x23, 0x25, 0xaf, 0x02, 0x1a, 0x68, 0xf7, 0x07, 0x51, 0x1a],
    rfl⟩

def encodedEncryptionKey : Bytes := List.replicate 32 9

theorem encryptionKey_size : encodedEncryptionKey.length = 32 := List.length_replicate

def encryptionKey : Curve25519PublicKey := ⟨encodedEncryptionKey, encryptionKey_size⟩

/-- The SHA-512 hash of the two keys. -/
def hashOfKeys : Bytes :=
  [0x29, 0xf1, 0x6b, 0x2c, 0x2b, 0x5a, 0x47, 0x16, 0x89, 0x5a, 0xd6, 0x3a, 0xd7, 0xff, 0x8f, 0x41,
    0x4c, 0x64, 0x7b, 0xef, 0xf2, 0x60, 0x14, 0xf7, 0x6c, 0xc5, 0x4b, 0xbf, 0x44, 0xe0, 0xce, 0xab,
    0x46, 0x51, 0x1e, 0x80, 0x2a, 0xfd, 0x50, 0x18, 0x45, 0xfa, 0x0d, 0xae, 0xcd, 0xd0, 0x5c, 0xa8,
    0x22, 0x8f, 0x32, 0xac, 0x8d, 0x4a, 0xbc, 0x7c, 0x08, 0x12, 0xf2, 0x3e, 0x3c, 0xf7, 0x7f, 0xe8]

/-- No signature is looked at in simulation mode. -/
def platform : Platform where
  PublicKey := Ed25519PublicKey
  CertPath := Bytes
  encoded key := x509Header ++ key.val
  decodePublicKey := decodePublicKey
  encodedCertPath path := path
  generateCertPath := some
  digit := asciiDigit
  sha512 bytes := if bytes = x509Header ++ signingKey.val ++ encryptionKey.encoded then hashOfKeys
    else []
  validates _ _ _ := false
  readReport _ := none
  verifyQuote _ _ := none

theorem platform_lawful : platform.Lawful where
  decodePublicKey_encoded key := by
    obtain ⟨bytes, size⟩ := key
    have dropped : (x509Header ++ bytes).drop 12 = bytes := List.drop_left' rfl
    have taken : (x509Header ++ bytes).take 12 = x509Header := List.take_left' rfl
    change decodePublicKey (x509Header ++ bytes) = _
    rw [decodePublicKey, dif_pos (by rw [dropped]; exact size), if_pos taken]
    exact congrArg some (Subtype.ext dropped)
  generateCertPath_encoded _ := rfl
  readsAscii := asciiDigit_readsAscii

def reportBody : Cursor SgxReportBody where
  bytes := List.replicate 258 0 ++ [1, 0] ++ List.replicate 60 0 ++ hashOfKeys
  sized := by simp only [List.length_append, List.length_replicate]; rfl

def info : EnclaveInstanceInfoImpl platform where
  dataSigningKey := signingKey
  encryptionKey := encryptionKey
  attestation := .mock ⟨.EPOCH, reportBody, true⟩
  reportDataMatches := by decide
  hasRevocationLevel := by decide

end Simulation

set_option maxRecDepth 4000 in
open Simulation in
theorem deserialize_serialize_simulation :
    ∃ bytes, info.serialize = some bytes ∧ deserialize platform bytes = .ok info ∧
      ∃ e, deserialize platform bytes.dropLast = .error e := by
  have small : (magic ++ info.body).length ≤ 2147483647 := by decide
  have serialised : info.serialize = some (magic ++ info.body) := by
    rw [EnclaveInstanceInfoImpl.serialize, if_pos small]
  obtain ⟨whole, short⟩ := deserialize_serialize platform_lawful serialised
  have different : (magic ++ info.body).dropLast ≠ magic ++ info.body := by decide
  exact ⟨_, serialised, whole, short _ (List.dropLast_prefix _) different⟩

end Conclave.Attestation
