import ConclaveFormal.Attestation.EnclaveInstanceInfo
import ConclaveFormal.Common.MailKeyDerivation

/-!
# KDS private keys

The message that delivers a mail to the enclave may have a KDS private key response in front of it.
The enclave takes the key from it only if the KDS is the one it has been configured for and the key
has been asked for.
-/

set_option autoImplicit false

namespace Conclave.Enclave

open Conclave.Lib BufferReader Conclave.Mail Conclave.Common Conclave.Attestation

/-- What the host has got from the KDS. -/
structure KDSPrivateKeyResponse where
  kdsAttestationReport : Bytes
  encryptedPrivateKey : Bytes
  deriving DecidableEq

namespace KDSPrivateKeyResponse

/-- `putKdsPrivateKeyResponse`. -/
def put (response : KDSPrivateKeyResponse) : Bytes :=
  writeIntLengthPrefixBytes response.encryptedPrivateKey ++
    writeIntLengthPrefixBytes response.kdsAttestationReport

end KDSPrivateKeyResponse

/-- `kdsEnclaveConstraint` is there if the enclave has been configured to use a KDS.  The age of an
attestation is that at the time of the check. -/
structure KdsEnvironment where
  N : Noise
  P : Platform
  publicKey : N.PublicKey → Curve25519PublicKey
  privateKey : { encoded : Bytes // encoded.length = 32 } → N.PrivateKey
  encryptionPrivateKey : N.PrivateKey
  kdsEnclaveConstraint : Option EnclaveConstraint
  withinAge : Instant → Instant → AttestationAge → Bool

variable (env : KdsEnvironment)

/-! ## The message -/

structure KdsPrivateKeyResponse where
  mail : DecryptedEnclaveMail env.N
  kdsEnclaveInstanceInfo : EnclaveInstanceInfoImpl env.P

/-- `getMailDecryptingStream(..).decryptMail(..)`. -/
def decryptResponse (mailBytes : Bytes) : Option (DecryptedEnclaveMail env.N) :=
  (MailDecryptingStream.decryptMail env.encryptionPrivateKey false
    (MailDecryptingStream.new mailBytes none)).1.toOption

def getKdsPrivateKeyResponse : BufferReader (KdsPrivateKeyResponse env) := do
  let mailSlice ← getIntLengthPrefixSlice
  let kdsResponseMail ← ofOption (decryptResponse env mailSlice)
  let infoSlice ← getIntLengthPrefixSlice
  let kdsEnclaveInstanceInfo ← ofOption (deserialize env.P infoSlice).toOption
  return ⟨kdsResponseMail, kdsEnclaveInstanceInfo⟩

structure MailMessage where
  routingHint : Option JString
  kdsPrivateKeyResponse : Option (KdsPrivateKeyResponse env)
  mailBytes : Bytes

/-- The beginning of `onMail`. -/
def readMailMessage : BufferReader (MailMessage env) := do
  let routingHint ← getNullable getIntLengthPrefixString
  let kdsPrivateKeyResponse ← getNullable (getKdsPrivateKeyResponse env)
  let mailBytes ← getRemainingBytes
  return ⟨routingHint, kdsPrivateKeyResponse, mailBytes⟩

/-- The message of the host without the type of the call and the ID of the thread, for which the
buffer has room as well. -/
def deliverMailMessage (routingHint : Option JString) (response : Option KDSPrivateKeyResponse)
    (mailBytes : Bytes) : Option Bytes :=
  let message :=
    nullableWrite (fun hint => writeIntLengthPrefixBytes (encodeUtf8 hint)) routingHint ++
    (nullableWrite KDSPrivateKeyResponse.put response ++ mailBytes)
  if 1 + 8 + message.length < 2 ^ 31 then some message else none

/-! ## The key -/

inductive ResponseError where
  | missingEnvelope
  | envelope (cause : BufferError)
  | keySpecMismatch
  | kdsConstraint (cause : CheckError)
  | senderMismatch
  | privateKeySize
  deriving DecidableEq

def envelopeKeySpec : BufferReader KDSKeySpec := do
  let serialVersion ← getByte
  require (serialVersion == 1)
  KDSKeySpec.getFromBuffer env.P.digit

def deserialiseKeySpecFromEnvelope (envelope : Option Bytes) : Except ResponseError KDSKeySpec :=
  match envelope with
  | none => .error .missingEnvelope
  | some envelope =>
      match envelopeKeySpec env envelope with
      | .error e => .error (.envelope e)
      | .ok (keySpec, _) => .ok keySpec

/-- The attestation as the constraint looks at it. -/
def instanceInfo (now : Instant) (info : EnclaveInstanceInfoImpl env.P) : EnclaveInstanceInfo where
  encryptionKey := info.encryptionKey
  enclaveInfo := info.enclaveInfo
  securitySummary := info.attestation.securitySummary
  withinAge := env.withinAge now info.attestation.timestamp

variable {env} in
/-- The encoded private key. -/
def KdsPrivateKeyResponse.getPrivateKey (response : KdsPrivateKeyResponse env) (now : Instant)
    (kdsEnclaveConstraint : EnclaveConstraint) (expectedKeySpec : KDSKeySpec) :
    Except ResponseError Bytes := do
  let keySpec ← deserialiseKeySpecFromEnvelope env response.mail.envelope
  if keySpec ≠ expectedKeySpec then .error .keySpecMismatch
  (kdsEnclaveConstraint.checkAgainst
    (instanceInfo env now response.kdsEnclaveInstanceInfo)).mapError .kdsConstraint
  if response.kdsEnclaveInstanceInfo.encryptionKey ≠
      env.publicKey response.mail.authenticatedSender then
    .error .senderMismatch
  return response.mail.bodyAsBytes

inductive KdsKeyException where
  | notConfigured
  | responseNotProvided
  | response (e : ResponseError)
  deriving DecidableEq

/-- The part of `getKdsPrivateKey` behind the cache. -/
def newKdsPrivateKey (now : Instant) (keySpec : KDSKeySpec)
    (kdsPrivateKeyResponse : Option (KdsPrivateKeyResponse env)) :
    Except KdsKeyException env.N.PrivateKey :=
  match env.kdsEnclaveConstraint, kdsPrivateKeyResponse with
  | none, _ => .error .notConfigured
  | some _, none => .error .responseNotProvided
  | some kdsEnclaveConstraint, some response =>
      match response.getPrivateKey now kdsEnclaveConstraint keySpec with
      | .error e => .error (.response e)
      | .ok encoded =>
          if size : encoded.length = 32 then .ok (env.privateKey ⟨encoded, size⟩)
          else .error (.response .privateKeySize)

variable {env}

/-- With a response the host is not to blame. -/
theorem newKdsPrivateKey_ne_responseNotProvided {now : Instant} {keySpec : KDSKeySpec}
    (response : KdsPrivateKeyResponse env) :
    newKdsPrivateKey env now keySpec (some response) ≠ .error .responseNotProvided := by
  intro threw
  cases configured : env.kdsEnclaveConstraint with
  | none =>
      simp only [newKdsPrivateKey, configured] at threw
      cases threw
  | some constraint =>
      simp only [newKdsPrivateKey, configured] at threw
      split at threw
      · cases threw
      · split at threw
        · cases threw
        · cases threw

/-! ## What the enclave makes of the message -/

theorem takes_getKdsPrivateKeyResponse {response : KDSPrivateKeyResponse}
    (mail : response.encryptedPrivateKey.length < 2 ^ 31)
    (report : response.kdsAttestationReport.length < 2 ^ 31) :
    Takes (getKdsPrivateKeyResponse env) response.put := by
  refine .bind (.getIntLengthPrefixSlice mail) ?_
  refine .ofOption_bind fun kdsResponseMail => ?_
  refine .bind_last (.getIntLengthPrefixSlice report) ?_
  exact .ofOption_bind fun info => .pure _

theorem reads_routingHint {routingHint : Option JString}
    (fits : ∀ hint ∈ routingHint, (encodeUtf8 hint).length < 2 ^ 31) :
    Reads (getNullable getIntLengthPrefixString)
      (nullableWrite (fun hint => writeIntLengthPrefixBytes (encodeUtf8 hint)) routingHint)
      (routingHint.map fun hint => decodeUtf8 (encodeUtf8 hint)) := by
  cases routingHint with
  | none => exact (Reads.getBoolean true).bind_last (.pure none)
  | some hint =>
      have text := Reads.getIntLengthPrefixString (fits hint rfl)
      exact (Reads.getBoolean false).bind (text.map some)

theorem reads_remaining (mailBytes : Bytes) :
    getRemainingBytes mailBytes = .ok (mailBytes, []) := by
  have available : remaining mailBytes = .ok (mailBytes.length, mailBytes) := rfl
  have taken := Reads.getBytes mailBytes []
  rw [List.append_nil] at taken
  rw [getRemainingBytes, bind_ok available]
  exact taken

/-- The enclave sees the same mail as the host, and a response exactly if the host has sent one. -/
theorem readMailMessage_deliverMailMessage {routingHint : Option JString}
    {response : Option KDSPrivateKeyResponse} {mailBytes sent rest : Bytes}
    {message : MailMessage env}
    (written : deliverMailMessage routingHint response mailBytes = some sent)
    (ran : readMailMessage env sent = .ok (message, rest)) :
    message.mailBytes = mailBytes ∧
      message.kdsPrivateKeyResponse.isSome = response.isSome := by
  obtain ⟨fits, same⟩ := Option.ite_none_right_eq_some.mp written
  cases same
  rw [List.length_append, List.length_append] at fits
  have hint : ∀ text ∈ routingHint, (encodeUtf8 text).length < 2 ^ 31 := by
    rintro text rfl
    simp only [nullableWrite, List.length_cons, length_writeIntLengthPrefixBytes] at fits
    omega
  rw [readMailMessage, bind_ok (reads_routingHint hint _)] at ran
  cases response with
  | none =>
      have absent : Reads (getNullable (getKdsPrivateKeyResponse env)) [1] none :=
        (Reads.getBoolean true).bind_last (.pure none)
      rw [nullableWrite, bind_ok (absent mailBytes), bind_ok (reads_remaining mailBytes)] at ran
      cases ran
      exact ⟨rfl, rfl⟩
  | some response =>
      simp only [nullableWrite, List.length_cons, KDSPrivateKeyResponse.put, List.length_append,
        length_writeIntLengthPrefixBytes] at fits
      have takes : Takes (getKdsPrivateKeyResponse env) response.put :=
        takes_getKdsPrivateKeyResponse (by omega) (by omega)
      have boolean := Reads.getBoolean false (response.put ++ mailBytes)
      rcases takes mailBytes with ⟨value, taken⟩ | ⟨e, threw⟩
      · have present : BufferReader.getNullable (getKdsPrivateKeyResponse env)
            (0 :: response.put ++ mailBytes) = .ok (some value, mailBytes) := by
          rw [BufferReader.getNullable]
          refine (bind_ok boolean).trans ?_
          rw [if_neg Bool.false_ne_true, bind_ok taken]
          rfl
        rw [nullableWrite, bind_ok present, bind_ok (reads_remaining mailBytes)] at ran
        cases ran
        exact ⟨rfl, rfl⟩
      · have absent : BufferReader.getNullable (getKdsPrivateKeyResponse env)
            (0 :: response.put ++ mailBytes) = .error e := by
          rw [BufferReader.getNullable]
          refine (bind_ok boolean).trans ?_
          rw [if_neg Bool.false_ne_true, bind_error threw]
        rw [nullableWrite, bind_error absent] at ran
        cases ran

end Conclave.Enclave
