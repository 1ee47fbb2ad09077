import ConclaveFormal.Common.EnclaveConstraint
import ConclaveFormal.Lib.ByteBuffer
import ConclaveFormal.Mail.DecryptingStream

/-!
# Key derivations of mail

The header of a mail says, unencrypted, which key it is encrypted with: that of the session, or one
that a KDS derives for a key specification.
-/

set_option autoImplicit false

namespace Conclave.Common

open Conclave.Lib BufferReader Conclave.Mail

inductive MasterKeyType where
  | DEVELOPMENT
  | CLUSTER
  | AZURE_HSM
  deriving DecidableEq, Repr

namespace MasterKeyType

def id : MasterKeyType → UInt8
  | DEVELOPMENT => 0
  | CLUSTER => 1
  | AZURE_HSM => 2

def fromID (id : UInt8) : BufferReader MasterKeyType :=
  if id = DEVELOPMENT.id then pure DEVELOPMENT
  else if id = CLUSTER.id then pure CLUSTER
  else if id = AZURE_HSM.id then pure AZURE_HSM
  else BufferReader.throw .illegalArgument

end MasterKeyType

structure KDSKeySpec where
  name : JString
  masterKeyType : MasterKeyType
  policyConstraint : JString
  deriving DecidableEq

variable (digit : UInt16 → Option Nat)

/-- The constructor, which insists on a valid constraint. -/
def KDSKeySpec.new (name : JString) (masterKeyType : MasterKeyType) (policyConstraint : JString) :
    BufferReader KDSKeySpec :=
  match EnclaveConstraint.parse digit policyConstraint true with
  | .error _ => BufferReader.throw .illegalArgument
  | .ok _ => pure ⟨name, masterKeyType, policyConstraint⟩

/-- The fields in the order in which headers and envelopes have them. -/
def KDSKeySpec.getFromBuffer : BufferReader KDSKeySpec := do
  let name ← getIntLengthPrefixString
  let id ← getByte
  let masterKeyType ← MasterKeyType.fromID id
  let policyConstraint ← getIntLengthPrefixString
  KDSKeySpec.new digit name masterKeyType policyConstraint

inductive MailKeyDerivation where
  | randomSession
  | kdsKeySpec (keySpec : KDSKeySpec)
  deriving DecidableEq

namespace MailKeyDerivation

def RANDOM_SESSION_TYPE : UInt8 := 0
def KDS_KEY_SPEC_TYPE : UInt8 := 1

/-- The size of the `CPUSVN` and of the `ISVSVN`. -/
def ABANDONED_MRSIGNER_SIZE : Nat := 16 + 2

/-- What the header is read from throws exceptions of its own; the others are a
`MailDecryptionException`. -/
inductive Exception where
  | stream (e : StreamException)
  | cannotDeserialize (cause : BufferError)
  | unknownType (type : UInt8)
  deriving DecidableEq, Repr

/-- `none` for a type that is not known. -/
def ofType (type : UInt8) : BufferReader (Option MailKeyDerivation) :=
  if type = RANDOM_SESSION_TYPE then return some randomSession
  else if type = KDS_KEY_SPEC_TYPE then do
    let keySpec ← KDSKeySpec.getFromBuffer digit
    return some (kdsKeySpec keySpec)
  else return none

def getFromBuffer : BufferReader (UInt8 × Option MailKeyDerivation) := do
  let type ← getByte
  let derivation ← ofType digit type
  return (type, derivation)

def deserialise (keyDerivation : Bytes) : Except Exception MailKeyDerivation :=
  match getFromBuffer digit keyDerivation with
  | .error e => .error (.cannotDeserialize e)
  | .ok ((type, none), _) => .error (.unknownType type)
  | .ok ((_, some derivation), _) => .ok derivation

def deserialiseFromHeader (keyDerivation : Option Bytes) : Except Exception MailKeyDerivation :=
  match keyDerivation with
  | none => .ok randomSession
  | some bytes =>
      if bytes.length = ABANDONED_MRSIGNER_SIZE then .ok randomSession else deserialise digit bytes

variable {N : Noise}

/-- The prologue stays with the stream. -/
def deserialiseFromMailStream (mailStream : MailDecryptingStream N) :
    Except Exception MailKeyDerivation × MailDecryptingStream N :=
  match MailDecryptingStream.header mailStream with
  | (.error e, mailStream) => (.error (.stream e), mailStream)
  | (.ok header, mailStream) => (deserialiseFromHeader digit header.keyDerivation, mailStream)

variable (N)

def deserialiseFromMailBytes (mailBytes : Bytes) : Except Exception MailKeyDerivation :=
  (deserialiseFromMailStream digit (MailDecryptingStream.new (N := N) mailBytes none)).1

end MailKeyDerivation

end Conclave.Common
