import ConclaveFormal.Enclave.ReceiveContext
import ConclaveFormal.Lib.Fallible
import ConclaveFormal.Mail.PostOffice

/-!
# The post offices of an enclave

An enclave keeps one session post office for each destination and topic, and makes a new one for
each reply to a mail that came under a KDS key.  Only the session post offices have a private header
and number their mail.
-/

set_option autoImplicit false

namespace Conclave.Enclave

open Conclave.Lib Conclave.Mail

structure PostOfficeEnvironment where
  N : Noise
  encoded : N.PublicKey → Curve25519PublicKey
  encryptionPrivateKey : N.PrivateKey
  isLetterOrDigit : UInt16 → Bool
  isWhitespace : UInt16 → Bool
  maxArrayLength : Nat

variable (env : PostOfficeEnvironment)

structure SessionEnclavePostOffice where
  destinationPublicKey : env.N.PublicKey
  topic : JString
  keyDerivation : Option Bytes
  sequenceNumber : BitVec 64

structure KdsEnclavePostOffice where
  destinationPublicKey : env.N.PublicKey
  topic : JString
  senderPrivateKey : env.N.PrivateKey

abbrev Place : Type := Curve25519PublicKey × JString

/-- What the user gets.  The session post offices are shared, so they are named by their place in
the table. -/
inductive EnclavePostOffice where
  | session (place : Place)
  | kds (office : KdsEnclavePostOffice env)

structure Mailing where
  enclave : EnclaveInstance
  postOffices : AssocMap Place (SessionEnclavePostOffice env)

variable {env}

/-- `AbstractPostOffice.encryptMail`, `none` where it throws.  `minSize` is what the policy of the
post office makes of the body; the user may have set one that throws. -/
def AbstractPostOffice.encryptMail (destination : env.N.PublicKey) (sender : env.N.PrivateKey)
    (header : EnclaveMailHeaderImpl) (ephemeral : env.N.Ephemeral) (minSize : Option Int)
    (body : Bytes) (privateHeader : Option Bytes) : Option Bytes :=
  match minSize with
  | none => none
  | some minSize =>
      (Mail.encryptMail destination sender ephemeral env.maxArrayLength header minSize body
        privateHeader).toOption

namespace Mailing

/-- A post office that is in the table stays as it is, with the key derivation it was made with. -/
def getCachedPostOffice (mailing : Mailing env) (destinationPublicKey : env.N.PublicKey)
    (topic : JString) (keyDerivation : Option Bytes) :
    Except TopicError (EnclavePostOffice env × Mailing env) :=
  let place := (env.encoded destinationPublicKey, topic)
  match mailing.postOffices.lookup place with
  | some _ => .ok (.session place, mailing)
  | none =>
      (checkTopic env.isLetterOrDigit env.isWhitespace topic).map fun _ =>
        (.session place,
          { mailing with
            postOffices := mailing.postOffices.insert place
              ⟨destinationPublicKey, topic, keyDerivation, 0⟩ })

/-- `postOffice(mail)` -/
def postOfficeOfMail (mailing : Mailing env) (mail : DecryptedEnclaveMail env.N) :
    Except TopicError (EnclavePostOffice env × Mailing env) :=
  match mail.kdsPrivateKey with
  | none => mailing.getCachedPostOffice mail.authenticatedSender mail.topic none
  | some kdsPrivateKey =>
      (checkTopic env.isLetterOrDigit env.isWhitespace mail.topic).map fun _ =>
        (.kds ⟨mail.authenticatedSender, mail.topic, kdsPrivateKey⟩, mailing)

/-- The private header is read before anything can go wrong.  `none` is a post office that the
enclave never gave out. -/
def encryptMail (mailing : Mailing env) (office : EnclavePostOffice env)
    (ephemeral : env.N.Ephemeral) (minSize : Option Int) (body : Bytes) (envelope : Option Bytes) :
    Option (Option Bytes × Mailing env) :=
  match office with
  | .session place =>
      (mailing.postOffices.lookup place).map fun office =>
        let (privateHeader, enclave) :=
          mailing.enclave.privateHeader (env.encoded office.destinationPublicKey)
        let header := ⟨office.sequenceNumber, office.topic, envelope, office.keyDerivation⟩
        (AbstractPostOffice.encryptMail office.destinationPublicKey env.encryptionPrivateKey header
            ephemeral minSize body privateHeader,
          ⟨enclave, mailing.postOffices.insert place
            { office with sequenceNumber := office.sequenceNumber + 1 }⟩)
  | .kds office =>
      some (AbstractPostOffice.encryptMail office.destinationPublicKey office.senderPrivateKey
        ⟨0, office.topic, envelope, none⟩ ephemeral minSize body none, mailing)

/-! ## What a post office does to the receive context -/

theorem getCachedPostOffice_enclave {mailing next : Mailing env}
    {destinationPublicKey : env.N.PublicKey} {topic : JString} {keyDerivation : Option Bytes}
    {office : EnclavePostOffice env}
    (ok : mailing.getCachedPostOffice destinationPublicKey topic keyDerivation =
      .ok (office, next)) : next.enclave = mailing.enclave := by
  unfold getCachedPostOffice at ok
  cases found : mailing.postOffices.lookup (env.encoded destinationPublicKey, topic) with
  | some cached =>
      simp only [found] at ok
      cases ok
      rfl
  | none =>
      simp only [found] at ok
      obtain ⟨_, _, made⟩ := map_eq_ok ok
      cases made
      rfl

theorem postOfficeOfMail_enclave {mailing next : Mailing env}
    {mail : DecryptedEnclaveMail env.N} {office : EnclavePostOffice env}
    (ok : mailing.postOfficeOfMail mail = .ok (office, next)) :
    next.enclave = mailing.enclave := by
  unfold postOfficeOfMail at ok
  cases key : mail.kdsPrivateKey with
  | none =>
      simp only [key] at ok
      exact getCachedPostOffice_enclave ok
  | some kdsPrivateKey =>
      simp only [key] at ok
      obtain ⟨_, _, made⟩ := map_eq_ok ok
      cases made
      rfl

theorem encryptMail_session {mailing next : Mailing env} {place : Place}
    {ephemeral : env.N.Ephemeral} {minSize : Option Int} {body : Bytes} {envelope : Option Bytes}
    {produced : Option Bytes} {receiveContext : ReceiveContext}
    (receiving : mailing.enclave.currentReceiveContext = some receiveContext)
    (ran : mailing.encryptMail (.session place) ephemeral minSize body envelope =
      some (produced, next)) :
    ∃ outboundClients, next.enclave.currentReceiveContext =
      some ⟨receiveContext.stateId, outboundClients,
        wrap32 (receiveContext.pendingPostMails + 1)⟩ := by
  unfold encryptMail at ran
  obtain ⟨office, found, ran⟩ := Option.map_eq_some_iff.mp ran
  rw [EnclaveInstance.privateHeader_receiving receiving] at ran
  cases ran
  exact ⟨_, rfl⟩

theorem encryptMail_kds {mailing next : Mailing env} {office : KdsEnclavePostOffice env}
    {ephemeral : env.N.Ephemeral} {minSize : Option Int} {body : Bytes} {envelope : Option Bytes}
    {produced : Option Bytes}
    (ran : mailing.encryptMail (.kds office) ephemeral minSize body envelope =
      some (produced, next)) : next = mailing := by
  cases ran
  rfl

end Mailing

end Conclave.Enclave
