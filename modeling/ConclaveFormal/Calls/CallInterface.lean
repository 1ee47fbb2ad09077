import ConclaveFormal.Common.ThrowableSerialisation
import ConclaveFormal.Lib.CallTree

/-!
# Calls between host and enclave

The two sides, the types of their calls and what a call comes to: a null or bytes, or an
exception.  A release enclave sanitises the exceptions that leave it.
-/

set_option autoImplicit false

namespace Conclave.Calls

open Conclave.Lib Conclave.Lib.Json Conclave.Common

inductive Side where
  | host
  | enclave
  deriving DecidableEq, Repr

def Side.other : Side → Side
  | host => enclave
  | enclave => host

/-! ## The types of calls -/

inductive EnclaveCallType where
  | INITIALISE_ENCLAVE
  | START_ENCLAVE
  | STOP_ENCLAVE
  | GET_ENCLAVE_INSTANCE_INFO_QUOTE
  | GET_KDS_PERSISTENCE_KEY_SPEC
  | SET_KDS_PERSISTENCE_KEY
  | CALL_MESSAGE_HANDLER
  deriving DecidableEq, Repr

inductive HostCallType where
  | GET_SIGNED_QUOTE
  | GET_ATTESTATION
  | SET_ENCLAVE_INFO
  | CALL_MESSAGE_HANDLER
  deriving DecidableEq, Repr

namespace EnclaveCallType

def toByte : EnclaveCallType → UInt8
  | INITIALISE_ENCLAVE => 0
  | START_ENCLAVE => 1
  | STOP_ENCLAVE => 2
  | GET_ENCLAVE_INSTANCE_INFO_QUOTE => 3
  | GET_KDS_PERSISTENCE_KEY_SPEC => 4
  | SET_KDS_PERSISTENCE_KEY => 5
  | CALL_MESSAGE_HANDLER => 6

def VALUES : List EnclaveCallType :=
  [INITIALISE_ENCLAVE, START_ENCLAVE, STOP_ENCLAVE, GET_ENCLAVE_INSTANCE_INFO_QUOTE,
    GET_KDS_PERSISTENCE_KEY_SPEC, SET_KDS_PERSISTENCE_KEY, CALL_MESSAGE_HANDLER]

end EnclaveCallType

namespace HostCallType

def toByte : HostCallType → UInt8
  | GET_SIGNED_QUOTE => 0
  | GET_ATTESTATION => 1
  | SET_ENCLAVE_INFO => 2
  | CALL_MESSAGE_HANDLER => 3

def VALUES : List HostCallType :=
  [GET_SIGNED_QUOTE, GET_ATTESTATION, SET_ENCLAVE_INFO, CALL_MESSAGE_HANDLER]

end HostCallType

/-- The calls that a side makes. -/
def CallType : Side → Type
  | .host => EnclaveCallType
  | .enclave => HostCallType

instance (side : Side) : DecidableEq (CallType side) :=
  match side with
  | .host => inferInstanceAs (DecidableEq EnclaveCallType)
  | .enclave => inferInstanceAs (DecidableEq HostCallType)

def CallType.toByte : {side : Side} → CallType side → UInt8
  | .host, callType => EnclaveCallType.toByte callType
  | .enclave, callType => HostCallType.toByte callType

/-- `none` is an exception. -/
def CallType.fromByte : (side : Side) → UInt8 → Option (CallType side)
  | .host, byte => EnclaveCallType.VALUES[byte.toNat]?
  | .enclave, byte => HostCallType.VALUES[byte.toNat]?

@[simp] theorem CallType.fromByte_toByte {side : Side} (callType : CallType side) :
    fromByte side callType.toByte = some callType := by
  cases side with
  | host => cases callType <;> rfl
  | enclave => cases callType <;> rfl

/-! ## Answers and exceptions -/

/-- What a handler returns or throws. -/
abbrev Answer : Type := Except Throwable (Option Bytes)

/-- What the call interfaces throw themselves. -/
inductive InterfaceException where
  | illegalState (message : String)
  | illegalArgument
  | noSuchElement
  | transition
  | serialisation (error : ThrowableSerialisation.SerialiseError)
  | outOfMemory
  | eof
  deriving DecidableEq

/-- What exceptions look like where they are created: with their stack trace, and the classes
by reflection. -/
structure Runtime where
  throwable : InterfaceException → Throwable
  deserialise : Bytes → Throwable
  sanitisedStackTrace : List StackTraceElement

def EnclaveStartException : JString := jstring "com.r3.conclave.common.EnclaveStartException"

def MailDecryptionException : JString := jstring "com.r3.conclave.mail.MailDecryptionException"

/-- Both classes are final, so that their instances are told by the name of their class. -/
def sanitiseThrowable (runtime : Runtime) (throwable : Throwable) : Throwable :=
  if throwable.className = EnclaveStartException then throwable
  else if throwable.className = MailDecryptionException then
    .mk MailDecryptionException none runtime.sanitisedStackTrace none []
  else
    .mk (jstring "java.lang.RuntimeException")
      (some (jstring ("Release enclave threw an exception which was swallowed " ++
        "to avoid leaking any secrets")))
      runtime.sanitisedStackTrace none []

/-- Only the enclave sanitises. -/
def maybeSanitised (runtime : Runtime) (side : Side) (sanitiseExceptions : Bool)
    (throwable : Throwable) : Throwable :=
  match side, sanitiseExceptions with
  | .enclave, true => sanitiseThrowable runtime throwable
  | _, _ => throwable

def exampleRuntime : Runtime where
  throwable _ := .mk (jstring "java.lang.IllegalStateException") none [] none []
  deserialise _ := .mk (jstring "java.lang.RuntimeException") none [] none []
  sanitisedStackTrace := []

end Conclave.Calls
