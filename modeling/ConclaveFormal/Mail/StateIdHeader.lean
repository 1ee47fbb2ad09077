import ConclaveFormal.Lib.Codec

/-!
# State IDs in private headers

A state ID names one execution of `receiveMail` or `receiveFromUntrustedHost`.
The mail created in it carries the ID, and what the enclave holds for the ID its
recipient has seen last, in a private header.
-/

set_option autoImplicit false

namespace Conclave.Mail

open Conclave.Lib Restore

structure EnclaveStateId where
  bytes : Bytes
  size : bytes.length = 16
  deriving DecidableEq

structure Curve25519PublicKey where
  encoded : Bytes
  size : encoded.length = 32
  deriving DecidableEq

variable {σ : Type}

def readEnclaveStateId : Restore σ EnclaveStateId := do
  let bytes ← readExactlyNBytes 16
  if size : bytes.length = 16 then
    return ⟨bytes, size⟩
  else
    Attempt.throw .illegalArgument

def readCurve25519PublicKey : Restore σ Curve25519PublicKey := do
  let encoded ← readExactlyNBytes 32
  if size : encoded.length = 32 then
    return ⟨encoded, size⟩
  else
    Attempt.throw .illegalArgument

structure StateIdHeader where
  stateId : EnclaveStateId
  lastSeenStateId : Option EnclaveStateId
  deriving DecidableEq

namespace StateIdHeader

def write (header : StateIdHeader) : Bytes :=
  [1] ++ header.stateId.bytes ++ nullableWrite EnclaveStateId.bytes header.lastSeenStateId

def read : Restore σ StateIdHeader := do
  let version ← Restore.read
  check (version == 1) .illegalState
  let stateId ← readEnclaveStateId
  let lastSeenStateId ← nullableRead readEnclaveStateId
  return ⟨stateId, lastSeenStateId⟩

end StateIdHeader

/-! ## Reading back -/

theorem restores_stateId (stateId : EnclaveStateId) :
    Restores (readEnclaveStateId (σ := σ)) stateId.bytes stateId id := by
  intro object rest
  have taken := Restores.readExactlyNBytes (σ := σ) stateId.bytes
  rw [stateId.size] at taken
  rw [readEnclaveStateId]
  exact (taken.bind_apply _ object rest).trans (by rw [dif_pos stateId.size]; rfl)

theorem restores_publicKey (key : Curve25519PublicKey) :
    Restores (readCurve25519PublicKey (σ := σ)) key.encoded key id := by
  intro object rest
  have taken := Restores.readExactlyNBytes (σ := σ) key.encoded
  rw [key.size] at taken
  rw [readCurve25519PublicKey]
  exact (taken.bind_apply _ object rest).trans (by rw [dif_pos key.size]; rfl)

theorem restores_stateIdHeader (header : StateIdHeader) :
    Restores (StateIdHeader.read (σ := σ)) header.write header id := by
  intro object rest
  have version : (((1 : UInt8).toNat : Int) == 1) = true := by decide
  rw [StateIdHeader.read, StateIdHeader.write, List.append_assoc, List.append_assoc,
    (Restores.read 1).bind_apply, Restores.check_bind version,
    (restores_stateId header.stateId).bind_apply]
  have lastSeen := Restores.nullableRead (σ := σ) header.lastSeenStateId
    fun stateId _ => restores_stateId stateId
  exact Restores.bind_pure lastSeen (StateIdHeader.mk header.stateId) object rest

end Conclave.Mail
