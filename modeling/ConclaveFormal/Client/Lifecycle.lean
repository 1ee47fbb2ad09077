import ConclaveFormal.Common.EnclaveConstraint
import ConclaveFormal.Lib.AssocMap
import ConclaveFormal.Mail.PostOffice

/-!
# The life of a client

An `EnclaveClient` is created new or from saved bytes, started, used and closed.
What it has to remember of the enclave lives in different places meanwhile: in the
state it was created with, and once it runs in its post offices and in the instance
info it downloaded last.
-/

set_option autoImplicit false

namespace Conclave.Client.Lifecycle

open Conclave.Lib Conclave.Common
open Conclave.Mail (Curve25519PublicKey EnclaveStateId EnclaveMailHeaderImpl StateIdHeader
  TopicError checkTopic Producible readCurve25519PublicKey readEnclaveStateId restores_publicKey
  restores_stateId)

/-! ## The objects -/

structure Curve25519PrivateKey where
  encoded : Bytes
  size : encoded.length = 32

instance : DecidableEq Curve25519PrivateKey := fun left right =>
  decidable_of_iff (left.encoded = right.encoded) (by
    cases left
    cases right
    simp)

/-- The constructor takes any private key; only the first kind can be used for mail. -/
inductive PrivateKey where
  | curve25519 (key : Curve25519PrivateKey)
  | other (encoded : Option Bytes)
  deriving DecidableEq

def PrivateKey.encoded : PrivateKey → Option Bytes
  | curve25519 key => some key.encoded
  | other encoded => encoded

structure PostOffice where
  destinationPublicKey : Curve25519PublicKey
  sequenceNumber : BitVec 64
  encryptCalled : Bool
  deriving DecidableEq

/-- What a client is created with, besides its key and constraint. -/
structure Previous where
  enclaveKey : Option Curve25519PublicKey
  sequenceNumbers : AssocMap JString (BitVec 64)

inductive ClientState where
  | new (previous : Previous)
  | running (enclaveInstanceInfo : EnclaveInstanceInfo)
  | closed (running : Option EnclaveInstanceInfo)

/-- `created` is for the specification only: what the client was created with. -/
structure EnclaveClient where
  clientPrivateKey : PrivateKey
  enclaveConstraint : EnclaveConstraint
  state : ClientState
  postOffices : AssocMap JString PostOffice
  lastSeenStateId : Option EnclaveStateId
  created : Previous

/-! ## What the client calls -/

/-- The character tables of the virtual machine. -/
structure Characters where
  isLetterOrDigit : UInt16 → Bool
  isWhitespace : UInt16 → Bool
  digit : UInt16 → Option Nat

structure SentMail where
  destination : Curve25519PublicKey
  sender : PrivateKey
  header : EnclaveMailHeaderImpl
  body : Bytes

/-- What becomes of the bytes of a mail from the enclave. -/
inductive Received where
  | mailDecryption
  | otherSender
  | opened (privateHeader : Option Bytes)

inductive Reply where
  | exception
  | mailDecryption
  | response (mail : Option Received)

/-- The transport, and the size policies of the post offices, which are the user's.
`none` is an exception. -/
structure Environment (σ : Type) where
  enclaveInstanceInfo : σ → Option EnclaveInstanceInfo × σ
  connect : σ → Option Unit × σ
  disconnect : σ → Option Unit × σ
  minSize : JString → Nat → σ → Option Int × σ
  sendMail : SentMail → σ → Reply × σ
  pollMail : σ → Option (Option Received) × σ

inductive ClientException where
  | illegalState (message : String)
  | illegalArgument
  | topic (error : TopicError)
  | constraint (error : CheckError)
  | io
  | transport
  | encryption
  | header (error : StreamError)
  | enclaveRollback
  deriving DecidableEq

section Client

variable {σ : Type} (characters : Characters) (maxArrayLength : Nat) (environment : Environment σ)

abbrev Method (σ α : Type) : Type := Attempt (EnclaveClient × σ) ClientException α

def call {α : Type} (f : σ → α × σ) : Method σ α := fun (client, outside) =>
  let (answer, outside) := f outside
  (.ok answer, (client, outside))

/-- A call of which `none` is the exception. -/
def callOrThrow {α : Type} (exception : ClientException) (f : σ → Option α × σ) : Method σ α := do
  let answer ← call f
  match answer with
  | some value => pure value
  | none => Attempt.throw exception

def currentClient : Method σ EnclaveClient := do
  let (client, _) ← Attempt.get
  pure client

def updateClient (change : EnclaveClient → EnclaveClient) : Method σ Unit :=
  Attempt.modify fun (client, outside) => (change client, outside)

def ofExcept {α : Type} : Except ClientException α → Method σ α
  | .ok value => pure value
  | .error exception => Attempt.throw exception

/-! ## Post offices -/

def createPostOffice (key : PrivateKey) (destination : Curve25519PublicKey) (topic : JString) :
    Except ClientException PostOffice :=
  match key with
  | .other _ => .error .illegalArgument
  | .curve25519 _ =>
      match checkTopic characters.isLetterOrDigit characters.isWhitespace topic with
      | .error error => .error (.topic error)
      | .ok _ => .ok ⟨destination, 0, false⟩

def setNextSequenceNumber (office : PostOffice) (sequenceNumber : BitVec 64) :
    Except ClientException PostOffice :=
  if office.encryptCalled then
    .error (.illegalState "Cannot change the sequence number once mail has been created.")
  else if sequenceNumber.toInt < 0 then .error .illegalArgument
  else .ok { office with sequenceNumber := sequenceNumber }

def currentOrPreviousRunningState : ClientState → Except ClientException EnclaveInstanceInfo
  | .new _ => .error (.illegalState "Client has not been started.")
  | .running info => .ok info
  | .closed (some info) => .ok info
  | .closed none => .error (.illegalState "Client was never started.")

def putPostOffice (topic : JString) (office : PostOffice) (client : EnclaveClient) :
    EnclaveClient :=
  { client with postOffices := client.postOffices.insert topic office }

def postOffice (topic : JString) : Method σ PostOffice := do
  let client ← currentClient
  match client.postOffices.lookup topic with
  | some office => pure office
  | none =>
      let info ← ofExcept (currentOrPreviousRunningState client.state)
      let office ← ofExcept
        (createPostOffice characters client.clientPrivateKey info.encryptionKey topic)
      updateClient (putPostOffice topic office)
      pure office

/-- The number is taken before anything that can fail. -/
def encryptMail (topic : JString) (body : Bytes) (envelope : Option Bytes) :
    Method σ SentMail := do
  let office ← postOffice characters topic
  let header : EnclaveMailHeaderImpl := ⟨office.sequenceNumber, topic, envelope, none⟩
  updateClient (putPostOffice topic
    { office with sequenceNumber := office.sequenceNumber + 1, encryptCalled := true })
  let minSize ← callOrThrow .encryption (environment.minSize topic body.length)
  if Producible maxArrayLength header minSize.toNat body none then
    let client ← currentClient
    pure ⟨office.destinationPublicKey, client.clientPrivateKey, header, body⟩
  else Attempt.throw .encryption

def resetPostOffices (info : EnclaveInstanceInfo) (client : EnclaveClient) : EnclaveClient :=
  { client with
    postOffices := client.postOffices.replaceAll fun _ _ => ⟨info.encryptionKey, 0, false⟩ }

/-! ## Mail from the enclave -/

def ignoreEnclaveRollback : Bool := false

def acceptStateIds (header : StateIdHeader) : Method σ Unit := do
  let client ← currentClient
  let previousStateId := client.lastSeenStateId
  if some header.stateId ≠ previousStateId then
    updateClient fun client => { client with lastSeenStateId := some header.stateId }
    if previousStateId ≠ header.lastSeenStateId ∧ ¬ ignoreEnclaveRollback then
      Attempt.throw .enclaveRollback

def processMail : Received → Method σ Unit
  | .mailDecryption => Attempt.throw .io
  | .otherSender => Attempt.throw .illegalArgument
  | .opened none => pure ()
  | .opened (some privateHeader) =>
      match (StateIdHeader.read ((), privateHeader)).1 with
      | .error error => Attempt.throw (.header error)
      | .ok header => acceptStateIds header

/-! ## The operations -/

def setState (state : ClientState) (client : EnclaveClient) : EnclaveClient :=
  { client with state := state }

/-- One post office for every number that was saved. -/
def restorePostOffices (info : EnclaveInstanceInfo) :
    List (Sigma fun _ : JString => BitVec 64) → Method σ Unit
  | [] => pure ()
  | ⟨topic, sequenceNumber⟩ :: rest => do
      let client ← currentClient
      let office ← ofExcept
        (createPostOffice characters client.clientPrivateKey info.encryptionKey topic)
      let office ← ofExcept (setNextSequenceNumber office sequenceNumber)
      updateClient (putPostOffice topic office)
      restorePostOffices info rest

/-- An enclave with another key expects the number zero for every topic. -/
def resumePostOffices (previous : Previous) (info : EnclaveInstanceInfo) : Method σ Unit :=
  if previous.enclaveKey = some info.encryptionKey then
    restorePostOffices characters info previous.sequenceNumbers.entries
  else pure ()

def start : Method σ Unit := do
  let client ← currentClient
  match client.state with
  | .new previous =>
      let info ← callOrThrow .transport environment.enclaveInstanceInfo
      ofExcept ((client.enclaveConstraint.checkAgainst info).mapError .constraint)
      resumePostOffices characters previous info
      callOrThrow .transport environment.connect
      updateClient (setState (.running info))
  | _ => Attempt.throw (.illegalState "The client has not been started or has been closed.")

def switchEnclave (newInfo : EnclaveInstanceInfo) : Method σ Unit := do
  let client ← currentClient
  match client.enclaveConstraint.checkAgainst newInfo with
  | .error (.invalidEnclave _) => Attempt.throw .io
  | .error error => Attempt.throw (.constraint error)
  | .ok _ =>
      updateClient (resetPostOffices newInfo)
      updateClient (setState (.running newInfo))

/-- The enclave could not decrypt the mail: its key may have changed. -/
def redownload (info : EnclaveInstanceInfo) : Method σ Unit := do
  let newInfo ← callOrThrow .transport environment.enclaveInstanceInfo
  if newInfo.encryptionKey = info.encryptionKey then Attempt.throw .io
  else switchEnclave newInfo

def sendAttempts (topic : JString) (body : Bytes) (envelope : Option Bytes) :
    Nat → Method σ Unit
  | 0 => Attempt.throw .io
  | attempts + 1 => do
      let mail ← encryptMail characters maxArrayLength environment topic body envelope
      let reply ← call (environment.sendMail mail)
      match reply with
      | .exception => Attempt.throw .transport
      | .mailDecryption =>
          let client ← currentClient
          let info ← ofExcept (currentOrPreviousRunningState client.state)
          redownload environment info
          sendAttempts topic body envelope attempts
      | .response none => pure ()
      | .response (some received) => processMail received

def MAX_RETRY_ATTEMPTS : Nat := 10

def sendMail (topic : JString) (body : Bytes) (envelope : Option Bytes) : Method σ Unit := do
  let client ← currentClient
  match client.state with
  | .running _ =>
      sendAttempts characters maxArrayLength environment topic body envelope MAX_RETRY_ATTEMPTS
  | _ => Attempt.throw (.illegalState "The client is not running.")

def pollMail : Method σ Unit := do
  let client ← currentClient
  match client.state with
  | .running _ =>
      let response ← callOrThrow .transport environment.pollMail
      match response with
      | none => pure ()
      | some received => processMail received
  | _ => Attempt.throw (.illegalState "The client is not running.")

def close : Method σ Unit := do
  let client ← currentClient
  match client.state with
  | .new _ => updateClient (setState (.closed none))
  | .running info =>
      updateClient (setState (.closed (some info)))
      callOrThrow .transport environment.disconnect
  | .closed _ => pure ()

end Client

/-! ## Saving and restoring -/

def MAGIC : Bytes := [69, 110, 99, 108, 97, 118, 101, 67, 108, 105, 101, 110, 116]

inductive SaveError where
  | nullPointer
  | utfDataFormat
  | outOfMemory
  deriving DecidableEq

def EnclaveClient.savedKey (client : EnclaveClient) : Option Curve25519PublicKey :=
  match client.state with
  | .new previous => previous.enclaveKey
  | .running info => some info.encryptionKey
  | .closed running => running.map EnclaveInstanceInfo.encryptionKey

def EnclaveClient.savedSequenceNumbers (client : EnclaveClient) : AssocMap JString (BitVec 64) :=
  match client.state with
  | .new previous => previous.sequenceNumbers
  | _ => client.postOffices.replaceAll fun _ office => office.sequenceNumber

def writeLong (value : BitVec 64) : Bytes := bigEndian 8 value.toNat

def writeSequenceNumbers :
    List (Sigma fun _ : JString => BitVec 64) → Except DataError Bytes
  | [] => .ok []
  | ⟨topic, sequenceNumber⟩ :: rest => do
      let utf ← writeUTF topic
      let later ← writeSequenceNumbers rest
      return utf ++ writeLong sequenceNumber ++ later

def EnclaveClient.save (client : EnclaveClient) : Except SaveError Bytes :=
  match client.clientPrivateKey.encoded, writeUTF client.enclaveConstraint.text,
      writeSequenceNumbers client.savedSequenceNumbers.entries with
  | none, _, _ => .error .nullPointer
  | some _, .error _, _ => .error .utfDataFormat
  | some _, .ok _, .error _ => .error .utfDataFormat
  | some key, .ok constraint, .ok numbers =>
      let saved := MAGIC ++ [1] ++ key ++ constraint ++
        nullableWrite Curve25519PublicKey.encoded client.savedKey ++
        nullableWrite EnclaveStateId.bytes client.lastSeenStateId ++
        writeInt client.savedSequenceNumbers.entries.length ++ numbers
      if saved.length ≤ 2147483647 then .ok saved else .error .outOfMemory

def readCurve25519PrivateKey {σ : Type} : Restore σ Curve25519PrivateKey := do
  let encoded ← Restore.readExactlyNBytes 32
  if size : encoded.length = 32 then
    return ⟨encoded, size⟩
  else
    Attempt.throw .illegalArgument

/-- `EnclaveConstraint.parse` in the middle of the stream. -/
def parseConstraint {σ : Type} (characters : Characters) (descriptor : JString) :
    Restore σ EnclaveConstraint :=
  match EnclaveConstraint.parse characters.digit descriptor true with
  | .ok constraint => pure constraint
  | .error (.illegalState _) => Attempt.throw .illegalState
  | .error _ => Attempt.throw .illegalArgument

def readSequenceNumber : Restore (AssocMap JString (BitVec 64)) Unit := do
  let topic ← Restore.ofData readUTF
  let sequenceNumber ← Restore.ofData readLong
  Restore.update fun numbers => numbers.insert topic sequenceNumber

def readClient (characters : Characters) :
    Restore (AssocMap JString (BitVec 64)) EnclaveClient := do
  let magic ← Restore.readExactlyNBytes MAGIC.length
  Restore.check (magic == MAGIC) .illegalArgument
  let version ← Restore.read
  Restore.check (version == 1) .illegalArgument
  let clientPrivateKey ← readCurve25519PrivateKey
  let descriptor ← Restore.ofData readUTF
  let constraint ← parseConstraint characters descriptor
  let previousEnclaveKey ← Restore.nullableRead readCurve25519PublicKey
  let lastSeenStateId ← Restore.nullableRead readEnclaveStateId
  let count ← Restore.readInt
  Restore.repeatTimes count.toNat readSequenceNumber
  let (previousSequenceNumbers, _) ← Attempt.get
  let previous : Previous := ⟨previousEnclaveKey, previousSequenceNumbers⟩
  return {
    clientPrivateKey := .curve25519 clientPrivateKey
    enclaveConstraint := constraint
    state := .new previous
    postOffices := ∅
    lastSeenStateId := lastSeenStateId
    created := previous }

/-- An `IOException` on the way becomes an `IllegalArgumentException`. -/
def restoreState (characters : Characters) (savedClient : Bytes) :
    Except StreamError EnclaveClient :=
  match (readClient characters (∅, savedClient)).1 with
  | .error (.data _) => .error .illegalArgument
  | result => result

/-- A client with a private key of its own. -/
def EnclaveClient.new (clientPrivateKey : PrivateKey) (enclaveConstraint : EnclaveConstraint) :
    EnclaveClient where
  clientPrivateKey := clientPrivateKey
  enclaveConstraint := enclaveConstraint
  state := .new ⟨none, ∅⟩
  postOffices := ∅
  lastSeenStateId := none
  created := ⟨none, ∅⟩

end Conclave.Client.Lifecycle
