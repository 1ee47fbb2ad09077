import ConclaveFormal.Calls.CallInterface

/-!
# Messages on a socket

Calls between the host and an enclave in another process are messages on a socket, each
with the type of its call and perhaps a payload, behind a length prefix.
-/

set_option autoImplicit false

namespace Conclave.Calls.Socket

open Conclave.Lib

inductive SocketCallInterfaceMessageType where
  | CALL
  | RETURN
  | EXCEPTION
  | STOP
  deriving DecidableEq, Repr

namespace SocketCallInterfaceMessageType

def toByte : SocketCallInterfaceMessageType → UInt8
  | CALL => 0
  | RETURN => 1
  | EXCEPTION => 2
  | STOP => 3

def VALUES : List SocketCallInterfaceMessageType := [CALL, RETURN, EXCEPTION, STOP]

/-- `none` is an exception. -/
def fromByte (byte : UInt8) : Option SocketCallInterfaceMessageType := VALUES[byte.toNat]?

@[simp] theorem fromByte_toByte (messageType : SocketCallInterfaceMessageType) :
    fromByte messageType.toByte = some messageType := by
  cases messageType <;> rfl

end SocketCallInterfaceMessageType

structure SocketCallInterfaceMessage where
  messageType : SocketCallInterfaceMessageType
  callTypeID : UInt8
  payload : Option Bytes
  deriving DecidableEq, Repr

namespace SocketCallInterfaceMessage

def size (message : SocketCallInterfaceMessage) : Nat :=
  1 + 1 + (1 + match message.payload with
    | none => 0
    | some payload => 4 + payload.length)

/-- A message whose size is no `Int` has no bytes: its buffer can not be allocated. -/
def toByteArray (message : SocketCallInterfaceMessage) : Option Bytes :=
  if message.size < 2 ^ 31 then
    some (message.messageType.toByte :: message.callTypeID ::
      nullableWrite writeIntLengthPrefixBytes message.payload)
  else none

def readByte : Restore Unit UInt8 := do
  let byte ← Restore.ofData (readUnsigned 1)
  return UInt8.ofNat byte

def read : Restore Unit SocketCallInterfaceMessage := do
  let messageTypeByte ← readByte
  match SocketCallInterfaceMessageType.fromByte messageTypeByte with
  | none => Attempt.throw .illegalArgument
  | some messageType =>
      let callTypeID ← readByte
      let payload ← Restore.nullableRead Restore.readIntLengthPrefixBytes
      return ⟨messageType, callTypeID, payload⟩

/-- `none` is an exception. -/
def fromByteArray (bytes : Bytes) : Option SocketCallInterfaceMessage :=
  match read ((), bytes) with
  | (.ok message, _) => some message
  | (.error _, _) => none

theorem length_toByteArray {message : SocketCallInterfaceMessage} {bytes : Bytes}
    (written : message.toByteArray = some bytes) : bytes.length = message.size := by
  obtain ⟨messageType, callTypeID, payload⟩ := message
  rw [toByteArray] at written
  split at written
  · cases written
    cases payload with
    | none => rfl
    | some payload =>
        simp only [nullableWrite, writeIntLengthPrefixBytes, writeInt, size, List.length_cons,
          List.length_append, bigEndian_length]
        omega
  · cases written

theorem exists_toByteArray {message : SocketCallInterfaceMessage}
    (fits : message.size < 2 ^ 31) : ∃ bytes, message.toByteArray = some bytes :=
  ⟨_, if_pos fits⟩

theorem toByteArray_eq_none {message : SocketCallInterfaceMessage}
    (tooLarge : ¬ message.size < 2 ^ 31) : message.toByteArray = none :=
  if_neg tooLarge

@[simp] theorem size_none (messageType : SocketCallInterfaceMessageType) (callTypeID : UInt8) :
    (SocketCallInterfaceMessage.mk messageType callTypeID none).size = 3 := rfl

@[simp] theorem size_some (messageType : SocketCallInterfaceMessageType) (callTypeID : UInt8)
    (payload : Bytes) :
    (SocketCallInterfaceMessage.mk messageType callTypeID (some payload)).size =
      payload.length + 7 := by
  simp only [size]
  omega

theorem size_lt_of_written {message : SocketCallInterfaceMessage} {bytes : Bytes}
    (written : message.toByteArray = some bytes) : message.size < 2 ^ 31 := by
  rw [toByteArray] at written
  split at written
  · assumption
  · cases written

theorem readByte_restores (byte : UInt8) : Restores readByte [byte] byte id := by
  have taken : ∀ rest, readUnsigned 1 ([byte] ++ rest) = .ok (byte.toNat, rest) := by
    intro rest
    have encoded := readUnsigned_bigEndian 1 byte.toNat rest byte.toNat_lt
    simpa [bigEndian] using encoded
  have read := Restores.bind_pure (Restores.ofData (σ := Unit) taken) UInt8.ofNat
  rw [UInt8.ofNat_toNat] at read
  exact read

theorem fromByteArray_toByteArray {message : SocketCallInterfaceMessage} {bytes : Bytes}
    (written : message.toByteArray = some bytes) : fromByteArray bytes = some message := by
  obtain ⟨messageType, callTypeID, payload⟩ := message
  rw [toByteArray] at written
  split at written
  · rename_i fits
    cases written
    have taken : Restores (Restore.nullableRead (σ := Unit) Restore.readIntLengthPrefixBytes)
        (nullableWrite writeIntLengthPrefixBytes payload) payload id := by
      refine Restores.nullableRead payload fun content isPayload => ?_
      cases isPayload
      refine Restores.readIntLengthPrefixBytes ?_
      simp only [size] at fits
      omega
    have last := Restores.bind_pure taken
      (fun payload => (⟨messageType, callTypeID, payload⟩ : SocketCallInterfaceMessage)) () []
    rw [List.append_nil] at last
    have first := readByte_restores messageType.toByte ()
    have second := readByte_restores callTypeID ()
    simp only [List.cons_append, List.nil_append] at first second
    rw [fromByteArray, read, Attempt.bind_ok (first _)]
    simp only [SocketCallInterfaceMessageType.fromByte_toByte]
    rw [Attempt.bind_ok (second _)]
    exact congrArg (fun ended => match ended with
      | (.ok message, _) => some message
      | (.error _, _) => none) last
  · cases written

end SocketCallInterfaceMessage

end Conclave.Calls.Socket
