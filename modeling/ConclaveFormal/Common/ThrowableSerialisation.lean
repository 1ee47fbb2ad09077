import ConclaveFormal.Lib.Codec
import ConclaveFormal.Lib.Json

/-!
# Exceptions as bytes

An exception that crosses the border of the enclave is written with its cause chain, the
deepest cause first.  Writing it fails if one of its strings does not fit into 65535
encoded bytes, or all of it not into an array.
-/

set_option autoImplicit false

namespace Conclave.Common

open Conclave.Lib Conclave.Lib.Json

structure StackTraceElement where
  className : JString
  methodName : JString
  fileName : Option JString
  lineNumber : BitVec 32
  deriving DecidableEq

/-- An exception whose cause chain ends. -/
inductive Throwable where
  | mk (className : JString) (message : Option JString) (stackTrace : List StackTraceElement)
      (cause : Option Throwable) (suppressed : List Throwable)

namespace Throwable

def className : Throwable → JString
  | mk className _ _ _ _ => className

end Throwable

namespace ThrowableSerialisation

inductive SerialiseError where
  | utfDataFormat
  | outOfMemory
  deriving DecidableEq, Repr

def writeString (text : JString) : Except SerialiseError Bytes :=
  (writeUTF text).mapError fun _ => .utfDataFormat

def writeNullableString : Option JString → Except SerialiseError Bytes
  | none => .ok [1]
  | some text => (writeString text).map (0 :: ·)

def writeElement (element : StackTraceElement) : Except SerialiseError Bytes := do
  let className ← writeString element.className
  let methodName ← writeString element.methodName
  let fileName ← writeNullableString element.fileName
  return className ++ methodName ++ fileName ++ writeInt element.lineNumber.toNat

def writeElements : List StackTraceElement → Except SerialiseError Bytes
  | [] => .ok []
  | element :: rest => do
      let first ← writeElement element
      let later ← writeElements rest
      return first ++ later

/-- How many exceptions the cause chain has. -/
def chainLength : Throwable → Nat
  | .mk _ _ _ none _ => 1
  | .mk _ _ _ (some cause) _ => chainLength cause + 1

mutual

/-- The cause chain from the deepest cause on. -/
def writeChain : Throwable → Except SerialiseError Bytes
  | .mk className message stackTrace cause suppressed => do
      let causes ← writeCause cause
      let className ← writeString className
      let message ← writeNullableString message
      let elements ← writeElements stackTrace
      let suppressedChains ← writeSuppressed suppressed
      return causes ++ className ++ message ++ writeInt stackTrace.length ++ elements ++
        writeInt suppressed.length ++ suppressedChains

def writeCause : Option Throwable → Except SerialiseError Bytes
  | none => .ok []
  | some cause => writeChain cause

def writeSuppressed : List Throwable → Except SerialiseError Bytes
  | [] => .ok []
  | first :: rest => do
      let chain ← writeChain first
      let later ← writeSuppressed rest
      return writeInt (chainLength first) ++ chain ++ later

end

def serialise (throwable : Throwable) : Except SerialiseError Bytes := do
  let chain ← writeChain throwable
  let serialised := writeInt (chainLength throwable) ++ chain
  if serialised.length ≤ 2147483647 then .ok serialised else .error .outOfMemory

end ThrowableSerialisation

end Conclave.Common
