import ConclaveFormal.Client.EnclaveClient
import ConclaveFormal.Enclave.ReceiveContext
import ConclaveFormal.Host.Transaction

/-!
# An enclave with a persistent map under an honest host

One instance of the enclave runs at a time and is entered on any number of host
threads.  The host actions each batch of mail commands in order: it puts mail
into the inbox of its recipient and stores sealed states, and it restarts the
enclave from the state stored last.  A restart makes a new `EnclaveHost` with new
transactions.

A thread other than the one that is receiving waits for the enclave's lock.  The
lock is still held while the commands of a receive are handed over; that other
threads may already begin then only adds runs.
-/

set_option autoImplicit false

namespace Conclave.Host

open Conclave.Lib
open Conclave.Mail (EnclaveStateId Curve25519PublicKey)
open Conclave.Enclave (EnclaveInstance ReceiveEnd ReceiveContext)
open Conclave.Client (EnclaveClient CreatedMail ClientError EncryptionKey)

/-- The commands a step hands to `commandsCallback`. -/
def Transaction.batch (transaction : Transaction) : Event → List MailCommand
  | .onSealedState sealedState =>
      match transaction.callState with
      | .intoEnclave _ _ =>
          transaction.mailCommands.map Produced.command ++ [.storeSealedState sealedState]
      | _ => []
  | .bodyEnds threw =>
      match transaction.activations with
      | .call previous intoEnclave :: _ =>
          if threw = false ∧
              revertState transaction.callState previous intoEnclave = .ready then
            transaction.mailCommands.map Produced.command
          else []
      | _ => []
  | _ => []

structure SealedBlob where
  blob : Bytes
  plaintext : Bytes

/-- A receive that has recorded its state ID for its outbound clients. -/
structure Recorded where
  receive : Nat
  stateId : EnclaveStateId
  clients : List Curve25519PublicKey

structure HonestClient where
  client : EnclaveClient
  inbox : List Bytes
  outcomes : List (Except ClientError CreatedMail)

/-- `receiver` is the thread inside a receive and `receive` the number of the
receive that began last.  The last three fields are for the specification only:
how many receives have begun, which have recorded their state ID since the last
batch, and whether session mail was handed over since a state was stored. -/
structure System (Thread : Type) where
  enclave : EnclaveInstance
  encryptionKey : EncryptionKey
  receiver : Option Thread
  receive : Nat
  transactions : Thread → Transaction
  sealedBlobs : List SealedBlob
  mails : List CreatedMail
  storedState : Option Bytes
  clients : Curve25519PublicKey → HonestClient
  receiveCount : Nat
  recorded : List Recorded
  unsaved : Bool

inductive SystemEvent (Thread : Type) where
  | host (thread : Thread) (event : Event)
  | beginReceive (thread : Thread) (stateId : EnclaveStateId)
  | setPersistentMap (thread : Thread) (map : AssocMap JString Bytes)
  | createMail (thread : Thread) (recipient : Curve25519PublicKey) (encryptedMail : Option Bytes)
  | postMail (thread : Thread) (encryptedBytes : Bytes) (routingHint : Option String)
  | endReceive (thread : Thread) (ending : ReceiveEnd) (blob : Bytes)
  | restart
  | updateEnclaveInstanceInfo (client : Curve25519PublicKey)
  | processMail (client : Curve25519PublicKey)

/-- The mail some bytes are the ciphertext of. -/
def mailOf (mails : List CreatedMail) (encryptedBytes : Bytes) : Option CreatedMail :=
  mails.find? fun mail => mail.encryptedMail == encryptedBytes

namespace System

variable {Thread : Type} [DecidableEq Thread]

def initial : System Thread where
  enclave := EnclaveInstance.start none
  encryptionKey := 0
  receiver := none
  receive := 0
  transactions := fun _ => Transaction.new
  sealedBlobs := []
  mails := []
  storedState := none
  clients := fun key => ⟨⟨key, 0, none⟩, [], []⟩
  receiveCount := 0
  recorded := []
  unsaved := false

/-! ## Mail commands -/

def deliver (mails : List CreatedMail) (clients : Curve25519PublicKey → HonestClient)
    (encryptedBytes : Bytes) : Curve25519PublicKey → HonestClient :=
  match mailOf mails encryptedBytes with
  | none => clients
  | some mail =>
      let recipient := clients mail.recipient
      Function.update clients mail.recipient
        { recipient with inbox := recipient.inbox ++ [encryptedBytes] }

def actionCommand (system : System Thread) : MailCommand → System Thread
  | .postMail encryptedBytes _ =>
      { system with clients := deliver system.mails system.clients encryptedBytes }
  | .storeSealedState sealedState => { system with storedState := some sealedState }

def isSessionMail (mails : List CreatedMail) : MailCommand → Bool
  | .postMail encryptedBytes _ =>
      ((mailOf mails encryptedBytes).bind CreatedMail.receive).isSome
  | .storeSealedState _ => false

def isSealedState : MailCommand → Bool
  | .postMail _ _ => false
  | .storeSealedState _ => true

/-- The host carries out a batch, if there is one. -/
def action (system : System Thread) (batch : List MailCommand) : System Thread :=
  if batch = [] then system
  else
    { batch.foldl actionCommand system with
      recorded := []
      unsaved := !batch.any isSealedState &&
        (system.unsaved || batch.any (isSessionMail system.mails)) }

def hostStep (system : System Thread) (thread : Thread) (event : Event) :
    Option (System Thread) :=
  let transaction := system.transactions thread
  (transaction.step event).map fun next =>
    action { system with transactions := Function.update system.transactions thread next }
      (transaction.batch event)

/-! ## The enclave -/

/-- The thread runs code of the enclave's user. -/
def receiving (system : System Thread) (thread : Thread) : Bool :=
  system.receiver = some thread && !(system.transactions thread).hostRuns

/-- The host takes messages of the thread; else sending one throws. -/
def listens (transaction : Transaction) : Bool :=
  match transaction.callState with
  | .intoEnclave _ _ => true
  | _ => false

def beginReceive (system : System Thread) (thread : Thread) (stateId : EnclaveStateId) :
    System Thread :=
  match system.enclave.beginReceive stateId with
  | none => system
  | some enclave =>
      { system with
        enclave := enclave
        receiver := some thread
        receive := system.receiveCount
        receiveCount := system.receiveCount + 1 }

def createMail (system : System Thread) (recipient : Curve25519PublicKey)
    (encryptedMail : Option Bytes) : System Thread :=
  let (header, enclave) := system.enclave.privateHeader recipient
  let system := { system with enclave := enclave }
  match encryptedMail with
  | none => system
  | some encryptedMail =>
      let mail : CreatedMail := ⟨encryptedMail, system.encryptionKey, recipient, header,
        header.map fun _ => system.receive⟩
      { system with mails := system.mails ++ [mail] }

def postMail (system : System Thread) (thread : Thread) (encryptedBytes : Bytes)
    (routingHint : Option String) : Option (System Thread) :=
  (system.hostStep thread (.onMail encryptedBytes routingHint)).map fun next =>
    if listens (system.transactions thread) then
      { next with enclave := next.enclave.postMail }
    else next

/-- The receives that have recorded their state ID, the ending one included. -/
def recordedWith (system : System Thread) (receiveContext : ReceiveContext)
    (ending : ReceiveEnd) : List Recorded :=
  if EnclaveInstance.reachesSealing receiveContext ending then
    system.recorded ++
      [⟨system.receive, receiveContext.stateId, receiveContext.outboundClients⟩]
  else system.recorded

def endReceive (system : System Thread) (maxPersistentMapSize : Int) (thread : Thread)
    (receiveContext : ReceiveContext) (ending : ReceiveEnd) (blob : Bytes) :
    Option (System Thread) :=
  let (result, enclave) := system.enclave.endReceive receiveContext maxPersistentMapSize ending
  let system :=
    { system with
      enclave := enclave
      receiver := none
      recorded := system.recordedWith receiveContext ending }
  match result with
  | .error _ => some system
  | .ok plaintext =>
      hostStep { system with sealedBlobs := system.sealedBlobs ++ [⟨blob, plaintext⟩] } thread
        (.onSealedState blob)

/-! ## Restarts and clients -/

def unsealData (sealedBlobs : List SealedBlob) (sealedState : Bytes) : Option Bytes :=
  (sealedBlobs.find? fun stored => stored.blob == sealedState).map SealedBlob.plaintext

def restarted (system : System Thread) : EnclaveInstance :=
  EnclaveInstance.start (system.storedState.bind (unsealData system.sealedBlobs))

def restart (system : System Thread) : System Thread :=
  { system with
    enclave := system.restarted
    encryptionKey := system.encryptionKey + 1
    receiver := none
    transactions := fun _ => Transaction.new
    recorded := [] }

def setClient (system : System Thread) (key : Curve25519PublicKey) (client : HonestClient) :
    System Thread :=
  { system with clients := Function.update system.clients key client }

def processMail (system : System Thread) (key : Curve25519PublicKey) (encryptedMail : Bytes)
    (rest : List Bytes) : System Thread :=
  let recipient := system.clients key
  let (outcome, client) :=
    EnclaveClient.processMail system.mails encryptedMail recipient.client
  system.setClient key ⟨client, rest, recipient.outcomes ++ [outcome]⟩

/-- The host's own events on a thread are its calls, their ends, and the
enclave's messages that are neither mail nor sealed states. -/
def isHostEvent : Event → Bool
  | .onMail _ _ | .onSealedState _ => false
  | _ => true

def step (maxPersistentMapSize : Int) (system : System Thread) :
    SystemEvent Thread → Option (System Thread)
  | .host thread event =>
      if isHostEvent event then system.hostStep thread event else none
  | .beginReceive thread stateId =>
      if (system.transactions thread).hostRuns = false ∧
          (system.receiver = none ∨ system.receiver = some thread) then
        some (system.beginReceive thread stateId)
      else none
  | .setPersistentMap thread map =>
      if system.receiving thread then
        some { system with enclave := system.enclave.setPersistentMap map }
      else none
  | .createMail thread recipient encryptedMail =>
      if system.receiving thread ∧
          ∀ mail ∈ system.mails, some mail.encryptedMail ≠ encryptedMail then
        some (system.createMail recipient encryptedMail)
      else none
  | .postMail thread encryptedBytes routingHint =>
      if system.receiving thread then system.postMail thread encryptedBytes routingHint
      else none
  | .endReceive thread ending blob =>
      if system.receiving thread ∧ ∀ stored ∈ system.sealedBlobs, stored.blob ≠ blob then
        system.enclave.currentReceiveContext.bind fun receiveContext =>
          system.endReceive maxPersistentMapSize thread receiveContext ending blob
      else none
  | .restart => some system.restart
  | .updateEnclaveInstanceInfo key =>
      let recipient := system.clients key
      some (system.setClient key
        { recipient with
          client := { recipient.client with encryptionKey := system.encryptionKey } })
  | .processMail key =>
      match (system.clients key).inbox with
      | [] => none
      | encryptedMail :: rest => some (system.processMail key encryptedMail rest)

end System

end Conclave.Host
