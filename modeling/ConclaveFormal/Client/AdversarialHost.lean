import ConclaveFormal.Client.EnclaveClient
import ConclaveFormal.Enclave.ReceiveContext
import ConclaveFormal.Lib.Transition

/-!
# Clients and enclaves under an adversarial host

The host runs any number of instances of the enclave, starts each from any bytes
it likes or from none, lets them receive in any order and hands any bytes to any
client any number of times.  Sealing is ideal, as mail encryption is: a blob
unseals to what was sealed in it and no other bytes unseal.  State IDs and
ciphertexts are fresh when they are made.

Receives are numbered in the order they begin.  The history of an enclave's
state are the receives it comes after: a state that was restored has the history
of the one that was sealed, and a receive adds itself where `sendSealedState` has
written its state ID into the state, also if serialising or sealing it throws.
-/

set_option autoImplicit false

namespace Conclave.Client

open Conclave.Lib
open Conclave.Mail (EnclaveStateId Curve25519PublicKey)
open Conclave.Enclave (EnclaveInstance ReceiveEnd)

structure Receive where
  encryptionKey : EncryptionKey
  stateId : EnclaveStateId
  history : List Nat

/-- `receive` is the one that began last.  It and the history are for the
specification only. -/
structure RunningEnclave where
  enclave : EnclaveInstance
  receive : Nat
  history : List Nat

/-- The last receive of the history is the one at whose end the state was sealed. -/
structure SealedBlob where
  blob : Bytes
  plaintext : Bytes
  history : List Nat

/-- A mail the client has accepted the state ID of, or one without, and whether
that was with an `EnclaveRollbackException`. -/
structure Acceptance where
  mail : CreatedMail
  rollback : Bool

structure ClientRecord where
  client : EnclaveClient
  accepted : List Acceptance

structure World where
  enclaves : List RunningEnclave
  receives : List Receive
  sealedBlobs : List SealedBlob
  mails : List CreatedMail
  clients : List ClientRecord

inductive Event where
  | startEnclave (sealedState : Option Bytes)
  | beginReceive (enclave : Nat) (stateId : EnclaveStateId)
  | setPersistentMap (enclave : Nat) (map : AssocMap JString Bytes)
  | createMail (enclave : Nat) (recipient : Curve25519PublicKey) (encryptedMail : Option Bytes)
  | postMail (enclave : Nat)
  | endReceive (enclave : Nat) (ending : ReceiveEnd) (blob : Bytes)
  | newClient (clientPublicKey : Curve25519PublicKey) (encryptionKey : EncryptionKey)
  | setEnclaveInstanceInfo (client : Nat) (encryptionKey : EncryptionKey)
  | processMail (client : Nat) (encryptedMail : Bytes)

namespace World

def initial : World := ⟨[], [], [], [], []⟩

def unsealData (world : World) (sealedState : Bytes) : Option SealedBlob :=
  world.sealedBlobs.find? fun stored => stored.blob == sealedState

/-- Bytes that do not unseal leave the instance started with an empty state. -/
def startEnclave (world : World) (sealedState : Option Bytes) : RunningEnclave :=
  match sealedState.bind world.unsealData with
  | none => ⟨EnclaveInstance.start none, 0, []⟩
  | some stored => ⟨EnclaveInstance.start (some stored.plaintext), 0, stored.history⟩

def setEnclave (world : World) (index : Nat) (running : RunningEnclave) : World :=
  { world with enclaves := world.enclaves.set index running }

/-- A receive inside another one ends with an exception at once. -/
def beginReceive (world : World) (index : Nat) (running : RunningEnclave)
    (stateId : EnclaveStateId) : World :=
  match running.enclave.beginReceive stateId with
  | none => world
  | some enclave =>
      { world.setEnclave index ⟨enclave, world.receives.length, running.history⟩ with
        receives := world.receives ++ [⟨index, stateId, running.history⟩] }

/-- `encryptMail`, which takes the private header first and may throw then. -/
def createMail (world : World) (index : Nat) (running : RunningEnclave)
    (recipient : Curve25519PublicKey) (encryptedMail : Option Bytes) : World :=
  let (header, enclave) := running.enclave.privateHeader recipient
  let world := world.setEnclave index { running with enclave := enclave }
  match encryptedMail with
  | none => world
  | some encryptedMail =>
      let mail : CreatedMail :=
        ⟨encryptedMail, index, recipient, header, header.map fun _ => running.receive⟩
      { world with mails := world.mails ++ [mail] }

def endReceive (world : World) (maxPersistentMapSize : Int) (index : Nat)
    (running : RunningEnclave) (receiveContext : Enclave.ReceiveContext) (ending : ReceiveEnd)
    (blob : Bytes) : World :=
  let (result, enclave) := running.enclave.endReceive receiveContext maxPersistentMapSize ending
  let history :=
    if EnclaveInstance.reachesSealing receiveContext ending then
      running.history ++ [running.receive]
    else running.history
  let world := world.setEnclave index ⟨enclave, running.receive, history⟩
  match result with
  | .error _ => world
  | .ok plaintext =>
      { world with sealedBlobs := world.sealedBlobs ++ [⟨blob, plaintext, history⟩] }

/-- The mail an outcome of `processMail` hands to the user. -/
def acceptance : Except ClientError CreatedMail → List Acceptance
  | .ok mail => [⟨mail, false⟩]
  | .error (.enclaveRollback mail) => [⟨mail, true⟩]
  | .error _ => []

def processMail (world : World) (record : ClientRecord) (encryptedMail : Bytes) :
    ClientRecord :=
  let (outcome, client) := EnclaveClient.processMail world.mails encryptedMail record.client
  ⟨client, record.accepted ++ acceptance outcome⟩

def step (maxPersistentMapSize : Int) (world : World) : Event → Option World
  | .startEnclave sealedState =>
      some { world with enclaves := world.enclaves ++ [world.startEnclave sealedState] }
  | .beginReceive index stateId =>
      if ∀ receive ∈ world.receives, receive.stateId ≠ stateId then
        (world.enclaves[index]?).map fun running => world.beginReceive index running stateId
      else none
  | .setPersistentMap index map =>
      (world.enclaves[index]?).map fun running =>
        world.setEnclave index { running with enclave := running.enclave.setPersistentMap map }
  | .createMail index recipient encryptedMail =>
      if ∀ mail ∈ world.mails, some mail.encryptedMail ≠ encryptedMail then
        (world.enclaves[index]?).map fun running =>
          world.createMail index running recipient encryptedMail
      else none
  | .postMail index =>
      (world.enclaves[index]?).map fun running =>
        world.setEnclave index { running with enclave := running.enclave.postMail }
  | .endReceive index ending blob =>
      if ∀ stored ∈ world.sealedBlobs, stored.blob ≠ blob then
        (world.enclaves[index]?).bind fun running =>
          running.enclave.currentReceiveContext.map fun receiveContext =>
            world.endReceive maxPersistentMapSize index running receiveContext ending blob
      else none
  | .newClient clientPublicKey encryptionKey =>
      some { world with
        clients := world.clients ++ [⟨⟨clientPublicKey, encryptionKey, none⟩, []⟩] }
  | .setEnclaveInstanceInfo index encryptionKey =>
      (world.clients[index]?).map fun record =>
        { world with
          clients := world.clients.set index
            { record with client := { record.client with encryptionKey := encryptionKey } } }
  | .processMail index encryptedMail =>
      (world.clients[index]?).map fun record =>
        { world with
          clients := world.clients.set index (world.processMail record encryptedMail) }

end World

end Conclave.Client
