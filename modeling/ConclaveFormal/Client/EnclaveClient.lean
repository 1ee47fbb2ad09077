import ConclaveFormal.Lib.Attempt
import ConclaveFormal.Mail.StateIdHeader

/-!
# Rollback detection in the client

`processMail` opens a mail, takes the state IDs from its private header and
compares the one the enclave expects the client to have seen last with the one
it has seen last.  Encryption is ideal: a ciphertext opens to the mail it was
made for, with the private key of its recipient and under the name of its
sender, and no other bytes open to anything.
-/

set_option autoImplicit false

namespace Conclave.Client

open Conclave.Lib
open Conclave.Mail (EnclaveStateId Curve25519PublicKey StateIdHeader restores_stateIdHeader)

/-- The session key pair of an instance of the enclave, by the number of the
instance. -/
abbrev EncryptionKey := Nat

/-- The last field is for the specification only: the number of the receive the
mail was created in, if it has a private header. -/
structure CreatedMail where
  encryptedMail : Bytes
  sender : EncryptionKey
  recipient : Curve25519PublicKey
  privateHeader : Option Bytes
  receive : Option Nat
  deriving DecidableEq

/-- What `AbstractPostOffice.decryptMail` makes of some bytes when these mails exist. -/
def decryptMail (mails : List CreatedMail) (encryptedMail : Bytes)
    (recipient : Curve25519PublicKey) (sender : EncryptionKey) : Option CreatedMail :=
  match mails.find? fun mail => mail.encryptedMail == encryptedMail with
  | none => none
  | some mail => if mail.recipient = recipient ∧ mail.sender = sender then some mail else none

structure EnclaveClient where
  clientPublicKey : Curve25519PublicKey
  encryptionKey : EncryptionKey
  lastSeenStateId : Option EnclaveStateId
  deriving DecidableEq

inductive ClientError where
  | io
  | header (error : StreamError)
  | enclaveRollback (mail : CreatedMail)
  deriving DecidableEq

def ignoreEnclaveRollback : Bool := false

namespace EnclaveClient

/-- The last seen ID is updated first, so that the client can go on after the
exception. -/
def acceptStateIds (mail : CreatedMail) (header : StateIdHeader) :
    Attempt EnclaveClient ClientError Unit := do
  let client ← Attempt.get
  let previousStateId := client.lastSeenStateId
  if some header.stateId ≠ previousStateId then
    Attempt.modify fun client => { client with lastSeenStateId := some header.stateId }
    if previousStateId ≠ header.lastSeenStateId ∧ ¬ ignoreEnclaveRollback then
      Attempt.throw (.enclaveRollback mail)

def processMail (mails : List CreatedMail) (encryptedMail : Bytes) :
    Attempt EnclaveClient ClientError CreatedMail := do
  let client ← Attempt.get
  match decryptMail mails encryptedMail client.clientPublicKey client.encryptionKey with
  | none => Attempt.throw .io
  | some mail =>
      match mail.privateHeader with
      | none => return mail
      | some privateHeader =>
          match (StateIdHeader.read ((), privateHeader)).1 with
          | .error e => Attempt.throw (.header e)
          | .ok header =>
              acceptStateIds mail header
              return mail

end EnclaveClient

/-! ## One mail -/

theorem decryptMail_eq_some {mails : List CreatedMail} {encryptedMail : Bytes}
    {recipient : Curve25519PublicKey} {sender : EncryptionKey} {mail : CreatedMail}
    (opened : decryptMail mails encryptedMail recipient sender = some mail) :
    mail ∈ mails ∧ mail.encryptedMail = encryptedMail ∧ mail.recipient = recipient ∧
      mail.sender = sender := by
  unfold decryptMail at opened
  split at opened
  · cases opened
  · rename_i found foundEq
    split at opened
    · rename_i addressed
      cases opened
      have same := List.find?_some foundEq
      exact ⟨List.mem_of_find?_eq_some foundEq, by simpa using same, addressed⟩
    · cases opened

theorem readHeader_write (header : StateIdHeader) :
    (StateIdHeader.read ((), header.write)).1 = .ok header := by
  have read := restores_stateIdHeader (σ := Unit) header () []
  rw [List.append_nil] at read
  rw [read]

namespace EnclaveClient

/-- The client has seen the ID before: it may be another mail of the same receive. -/
theorem acceptStateIds_same {client : EnclaveClient} {header : StateIdHeader} (mail : CreatedMail)
    (same : client.lastSeenStateId = some header.stateId) :
    acceptStateIds mail header client = (.ok (), client) := by
  simp [acceptStateIds, same]

theorem acceptStateIds_next {client : EnclaveClient} {header : StateIdHeader} (mail : CreatedMail)
    (different : client.lastSeenStateId ≠ some header.stateId)
    (expected : client.lastSeenStateId = header.lastSeenStateId) :
    acceptStateIds mail header client =
      (.ok (), { client with lastSeenStateId := some header.stateId }) := by
  simp only [acceptStateIds, Attempt.get_bind, if_pos different.symm, Attempt.modify_bind]
  rw [if_neg (fun unexpected => unexpected.1 expected)]
  rfl

theorem acceptStateIds_rollback {client : EnclaveClient} {header : StateIdHeader}
    (mail : CreatedMail)
    (different : client.lastSeenStateId ≠ some header.stateId)
    (unexpected : client.lastSeenStateId ≠ header.lastSeenStateId) :
    acceptStateIds mail header client =
      (.error (.enclaveRollback mail), { client with lastSeenStateId := some header.stateId }) := by
  simp only [acceptStateIds, Attempt.get_bind, if_pos different.symm, Attempt.modify_bind]
  rw [if_pos ⟨unexpected, Bool.false_ne_true⟩]
  rfl

theorem processMail_closed {client : EnclaveClient} {mails : List CreatedMail}
    {encryptedMail : Bytes} (closed : decryptMail mails encryptedMail client.clientPublicKey
      client.encryptionKey = none) :
    processMail mails encryptedMail client = (.error .io, client) := by
  simp only [processMail, Attempt.get_bind, closed, Attempt.throw_apply]

theorem processMail_plain {client : EnclaveClient} {mails : List CreatedMail}
    {encryptedMail : Bytes} {mail : CreatedMail}
    (opened : decryptMail mails encryptedMail client.clientPublicKey client.encryptionKey =
      some mail) (plain : mail.privateHeader = none) :
    processMail mails encryptedMail client = (.ok mail, client) := by
  simp only [processMail, Attempt.get_bind, opened, plain, Attempt.pure_apply]

theorem processMail_header {client : EnclaveClient} {mails : List CreatedMail}
    {encryptedMail : Bytes} {mail : CreatedMail} {header : StateIdHeader}
    (opened : decryptMail mails encryptedMail client.clientPublicKey client.encryptionKey =
      some mail) (headerEq : mail.privateHeader = some header.write) :
    processMail mails encryptedMail client =
      (acceptStateIds mail header >>= fun _ => pure mail) client := by
  simp only [processMail, Attempt.get_bind, opened, headerEq, readHeader_write]

/-- What a mail with state IDs does to the client: nothing is new, or the new ID
is accepted, with an exception if the enclave expected another one before it. -/
theorem processMail_cases {client : EnclaveClient} {mails : List CreatedMail}
    {encryptedMail : Bytes} {mail : CreatedMail} {header : StateIdHeader}
    (opened : decryptMail mails encryptedMail client.clientPublicKey client.encryptionKey =
      some mail) (headerEq : mail.privateHeader = some header.write) :
    (client.lastSeenStateId = some header.stateId ∧
      processMail mails encryptedMail client = (.ok mail, client)) ∨
    (client.lastSeenStateId ≠ some header.stateId ∧
      client.lastSeenStateId = header.lastSeenStateId ∧
      processMail mails encryptedMail client =
        (.ok mail, { client with lastSeenStateId := some header.stateId })) ∨
    (client.lastSeenStateId ≠ some header.stateId ∧
      client.lastSeenStateId ≠ header.lastSeenStateId ∧
      processMail mails encryptedMail client =
        (.error (.enclaveRollback mail),
          { client with lastSeenStateId := some header.stateId })) := by
  rw [processMail_header opened headerEq]
  by_cases same : client.lastSeenStateId = some header.stateId
  · left
    exact ⟨same, Attempt.bind_ok (acceptStateIds_same mail same)⟩
  · right
    by_cases expected : client.lastSeenStateId = header.lastSeenStateId
    · left
      exact ⟨same, expected, Attempt.bind_ok (acceptStateIds_next mail same expected)⟩
    · right
      exact ⟨same, expected, Attempt.bind_error (acceptStateIds_rollback mail same expected)⟩

end EnclaveClient

end Conclave.Client
