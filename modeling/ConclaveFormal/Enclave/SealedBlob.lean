import ConclaveFormal.Enclave.ReceiveContext
import ConclaveFormal.Lib.ByteBuffer

/-!
# The sealed blob

The sealed state leaves the enclave encrypted: with the key for persistence where a KDS is
configured, and by the sealing of the platform otherwise.  What an enclave has sent restores its
persistent map and its last seen state IDs in a later instance with the same key.
-/

set_option autoImplicit false

namespace Conclave.Enclave

open Conclave.Lib BufferReader

/-! ## `EnclaveUtils` -/

def IV_SIZE_BYTES : Nat := 12
def TAG_SIZE_BYTES : Nat := 16

/-- `AES/GCM/NoPadding` for a key, an initialisation vector and the data that are authenticated.
The tag follows the encrypted bytes. -/
structure AesGcm where
  encrypt : Bytes → Bytes → Bytes → Bytes → Bytes
  decrypt : Bytes → Bytes → Bytes → Bytes → Option Bytes

structure AesGcm.Lawful (cipher : AesGcm) : Prop where
  decrypt_encrypt : ∀ key iv aad plaintext,
    cipher.decrypt key iv aad (cipher.encrypt key iv aad plaintext) = some plaintext
  length_encrypt : ∀ key iv aad plaintext,
    (cipher.encrypt key iv aad plaintext).length = plaintext.length + TAG_SIZE_BYTES

structure PlaintextAndEnvelope where
  plaintext : Bytes
  authenticatedData : Option Bytes
  deriving DecidableEq

structure InitVector where
  bytes : Bytes
  size : bytes.length = IV_SIZE_BYTES
  deriving DecidableEq

variable (cipher : AesGcm)

/-- The sizes must add up to one of an array. -/
def sealData (aesKey : Bytes) (iv : InitVector) (toBeSealed : PlaintextAndEnvelope) :
    Option Bytes :=
  let authenticatedData := toBeSealed.authenticatedData.getD []
  if 1 + IV_SIZE_BYTES + 4 + authenticatedData.length + toBeSealed.plaintext.length +
      TAG_SIZE_BYTES < 2 ^ 31 then
    some ([1] ++ iv.bytes ++ writeIntLengthPrefixBytes authenticatedData ++
      cipher.encrypt aesKey iv.bytes authenticatedData toBeSealed.plaintext)
  else none

def getAuthenticatedData (authenticatedDataSize : Int) : BufferReader (Option Bytes) :=
  if authenticatedDataSize > 0 then do
    let authenticatedData ← getBytes authenticatedDataSize
    return some authenticatedData
  else return none

/-- `cipher.doFinal` of the remaining bytes, into a buffer without room for the tag. -/
def doFinal (aesKey iv : Bytes) (authenticatedData : Option Bytes) :
    BufferReader PlaintextAndEnvelope := fun remaining =>
  if remaining.length < TAG_SIZE_BYTES then .error .illegalArgument
  else
    match cipher.decrypt aesKey iv (authenticatedData.getD []) remaining with
    | none => .error .decoding
    | some plaintext => .ok (⟨plaintext, authenticatedData⟩, [])

def unsealData (aesKey : Bytes) : BufferReader PlaintextAndEnvelope := do
  let version ← getByte
  require (version == 1)
  let iv ← getBytes IV_SIZE_BYTES
  let authenticatedDataSize ← getInt
  let authenticatedData ← getAuthenticatedData authenticatedDataSize
  doFinal cipher aesKey iv authenticatedData

variable {cipher}

theorem reads_authenticatedData {authenticatedData : Option Bytes}
    (some_bytes : authenticatedData ≠ some []) :
    Reads (getAuthenticatedData (authenticatedData.getD []).length)
      (authenticatedData.getD []) authenticatedData := by
  cases authenticatedData with
  | none => exact .pure none
  | some bytes =>
      have nonempty : bytes ≠ [] := fun empty => some_bytes (by rw [empty])
      have positive : ((bytes.length : Nat) : Int) > 0 := by
        have := List.length_pos_iff.mpr nonempty
        omega
      rw [Option.getD_some, getAuthenticatedData, if_pos positive]
      exact (Reads.getBytes bytes).map some

/-- Unsealing undoes sealing, unless the authenticated data are there but empty. -/
theorem unsealData_sealData (lawful : cipher.Lawful) {aesKey : Bytes} {iv : InitVector}
    {toBeSealed : PlaintextAndEnvelope} {sealedBlob : Bytes}
    (some_bytes : toBeSealed.authenticatedData ≠ some [])
    (sealed_ : sealData cipher aesKey iv toBeSealed = some sealedBlob) :
    unsealData cipher aesKey sealedBlob = .ok (toBeSealed, []) := by
  obtain ⟨plaintext, authenticatedData⟩ := toBeSealed
  simp only [sealData, Option.ite_none_right_eq_some, Option.some.injEq] at sealed_
  obtain ⟨fits, rfl⟩ := sealed_
  have enough : ¬ (cipher.encrypt aesKey iv.bytes (authenticatedData.getD []) plaintext).length <
      TAG_SIZE_BYTES := by
    rw [lawful.length_encrypt]
    omega
  have vector : Reads (getBytes IV_SIZE_BYTES) iv.bytes iv.bytes := by
    rw [← iv.size]
    exact .getBytes iv.bytes
  have version : ∀ rest, require ((1 : UInt8) == 1) rest = .ok ((), rest) := fun _ => rfl
  simp only [writeIntLengthPrefixBytes, List.append_assoc]
  rw [unsealData, bind_ok (Reads.getByte 1 _), bind_ok (version _), bind_ok (vector _),
    bind_ok (Reads.getInt (by omega) _), bind_ok (reads_authenticatedData some_bytes _), doFinal,
    if_neg enough, lawful.decrypt_encrypt]

/-! ## The state behind the sealing -/

/-- What the environment of the enclave decides: whether a KDS is configured, the capacity of the
persistent map, and the sealing of the platform, which draws on a source of entropy. -/
structure SealingEnvironment where
  kdsConfigured : Bool
  enablePersistentMap : Bool
  maxPersistentMapSize : Int
  sealData : Nat → PlaintextAndEnvelope → Option Bytes
  unsealData : Bytes → Option PlaintextAndEnvelope

structure SealingEnvironment.Lawful (env : SealingEnvironment) : Prop where
  unsealData_sealData : ∀ entropy toBeSealed sealedBlob,
    env.sealData entropy toBeSealed = some sealedBlob →
      env.unsealData sealedBlob = some toBeSealed

inductive ApplyError where
  | unsealData
  | stream (error : StreamError)
  deriving DecidableEq, Repr

section SealedState

variable (cipher) (env : SealingEnvironment) (aesPersistenceKey : Bytes)

def sealState (iv : InitVector) (entropy : Nat) (serialised : Bytes) : Option Bytes :=
  if env.kdsConfigured then sealData cipher aesPersistenceKey iv ⟨serialised, none⟩
  else env.sealData entropy ⟨serialised, none⟩

def unsealState (sealedStateBlob : Bytes) : Option PlaintextAndEnvelope :=
  if env.kdsConfigured then
    (unsealData cipher aesPersistenceKey sealedStateBlob).toOption.map Prod.fst
  else env.unsealData sealedStateBlob

/-- `sendSealedState` up to the message to the host, whose buffer has room for the type of the call
and the ID of the thread as well. -/
def EnclaveInstance.sendSealedBlob (enclave : EnclaveInstance) (receiveContext : ReceiveContext)
    (now : Instant) (iv : InitVector) (entropy : Nat) : Except SealError Bytes × EnclaveInstance :=
  match enclave.sendSealedState receiveContext env.maxPersistentMapSize now false with
  | (.error e, enclave) => (.error e, enclave)
  | (.ok serialised, enclave) =>
      match sealState cipher env aesPersistenceKey iv entropy serialised with
      | none => (.error .sealData, enclave)
      | some sealedState =>
          if 1 + 8 + sealedState.length < 2 ^ 31 then (.ok sealedState, enclave)
          else (.error .illegalArgument, enclave)

/-- What was put into the maps before an exception stays there. -/
def applySealedBlob (state : PersistentState) (sealedStateBlob : Bytes) :
    Except ApplyError Unit × PersistentState :=
  if env.enablePersistentMap then
    match unsealState cipher env aesPersistenceKey sealedStateBlob with
    | none => (.error .unsealData, state)
    | some sealedState =>
        let applied := applySealedState (state, sealedState.plaintext)
        (applied.1.mapError .stream, applied.2.1)
  else (.ok (), state)

end SealedState

variable {env : SealingEnvironment} {aesPersistenceKey : Bytes}

theorem unsealState_sealState (lawful : cipher.Lawful) (platform : env.Lawful) {iv : InitVector}
    {entropy : Nat} {serialised sealedState : Bytes}
    (sealed_ : sealState cipher env aesPersistenceKey iv entropy serialised = some sealedState) :
    unsealState cipher env aesPersistenceKey sealedState = some ⟨serialised, none⟩ := by
  rw [sealState] at sealed_
  rw [unsealState]
  by_cases kds : env.kdsConfigured = true
  · rw [if_pos kds] at sealed_ ⊢
    rw [unsealData_sealData lawful (by simp) sealed_]
    rfl
  · rw [if_neg kds] at sealed_ ⊢
    exact platform.unsealData_sealData entropy _ sealedState sealed_

theorem EnclaveInstance.sendSealedState_eq_ok {enclave after : EnclaveInstance}
    {receiveContext : ReceiveContext} {maxPersistentMapSize : Int} {now : Instant}
    {serialised : Bytes}
    (sent : enclave.sendSealedState receiveContext maxPersistentMapSize now false =
      (.ok serialised, after)) :
    after.state = enclave.updateLastSeenStateIds receiveContext ∧
      after.state.serialise maxPersistentMapSize receiveContext.stateId now = .ok serialised := by
  rw [EnclaveInstance.sendSealedState] at sent
  cases serialisedEq : (enclave.updateLastSeenStateIds receiveContext).serialise
      maxPersistentMapSize receiveContext.stateId now with
  | error e =>
      simp only [serialisedEq] at sent
      cases sent
  | ok bytes =>
      simp only [serialisedEq, Bool.false_eq_true, ↓reduceIte] at sent
      cases sent
      exact ⟨rfl, serialisedEq⟩

theorem EnclaveInstance.sendSealedBlob_eq_ok {enclave after : EnclaveInstance}
    {receiveContext : ReceiveContext} {now : Instant} {iv : InitVector} {entropy : Nat}
    {sealedState : Bytes}
    (sent : enclave.sendSealedBlob cipher env aesPersistenceKey receiveContext now iv entropy =
      (.ok sealedState, after)) :
    ∃ serialised,
      enclave.sendSealedState receiveContext env.maxPersistentMapSize now false =
        (.ok serialised, after) ∧
      sealState cipher env aesPersistenceKey iv entropy serialised = some sealedState := by
  rw [EnclaveInstance.sendSealedBlob] at sent
  cases serialisedEq :
      enclave.sendSealedState receiveContext env.maxPersistentMapSize now false with
  | mk result left =>
      cases result with
      | error e =>
          simp only [serialisedEq] at sent
          cases sent
      | ok serialised =>
          simp only [serialisedEq] at sent
          cases sealedEq : sealState cipher env aesPersistenceKey iv entropy serialised with
          | none =>
              simp only [sealedEq] at sent
              cases sent
          | some blob =>
              simp only [sealedEq] at sent
              split at sent
              · cases sent
                exact ⟨serialised, rfl, sealedEq⟩
              · cases sent

/-- The blob that an enclave has sent gives a new instance with the same key the persistent map,
with its entries in the same order, and the last seen state IDs that the enclave had then. -/
theorem applySealedBlob_sendSealedBlob (lawful : cipher.Lawful) (platform : env.Lawful)
    (enabled : env.enablePersistentMap = true) {enclave after : EnclaveInstance}
    {receiveContext : ReceiveContext} {now : Instant} {iv : InitVector} {entropy : Nat}
    {sealedState : Bytes}
    (sent : enclave.sendSealedBlob cipher env aesPersistenceKey receiveContext now iv entropy =
      (.ok sealedState, after)) :
    ∃ restored,
      applySealedBlob cipher env aesPersistenceKey .empty sealedState = (.ok (), restored) ∧
      restored.persistentMap = enclave.state.persistentMap ∧
      after.state = enclave.updateLastSeenStateIds receiveContext ∧
      ∀ client, restored.lastSeenStateIds.lookup client =
        after.state.lastSeenStateIds.lookup client := by
  obtain ⟨serialised, serialisedEq, sealedEq⟩ := EnclaveInstance.sendSealedBlob_eq_ok sent
  obtain ⟨updated, written⟩ := EnclaveInstance.sendSealedState_eq_ok serialisedEq
  refine ⟨⟨after.state.persistentMap, AssocMap.putAll after.state.lastSeenStateIds.entries ∅⟩,
    ?_, ?_, updated, ?_⟩
  · rw [applySealedBlob, if_pos enabled, unsealState_sealState lawful platform sealedEq]
    simp only [applySealedState_serialise written]
    rfl
  · rw [updated]
    rfl
  · exact AssocMap.lookup_putAll_entries after.state.lastSeenStateIds

/-! ### One entry in the map and one client -/

namespace OneEntry

def exampleCipher : AesGcm where
  encrypt _ _ _ plaintext := plaintext ++ List.replicate TAG_SIZE_BYTES 0
  decrypt _ _ _ encrypted := some (encrypted.take (encrypted.length - TAG_SIZE_BYTES))

def exampleEnvironment : SealingEnvironment where
  kdsConfigured := true
  enablePersistentMap := true
  maxPersistentMapSize := 1024
  sealData _ toBeSealed :=
    if toBeSealed.authenticatedData = none then some toBeSealed.plaintext else none
  unsealData sealedBlob := some ⟨sealedBlob, none⟩

def receiveContext : ReceiveContext :=
  ⟨⟨List.replicate 16 3, List.length_replicate⟩,
    [⟨List.replicate 32 9, List.length_replicate⟩], 0⟩

def enclave : EnclaveInstance := EnclaveInstance.new.setPersistentMap (AssocMap.put ∅ [0x6b] [7])

theorem cipher_lawful : exampleCipher.Lawful where
  decrypt_encrypt key iv aad plaintext := by simp [exampleCipher]
  length_encrypt key iv aad plaintext := by simp [exampleCipher]

theorem env_lawful : exampleEnvironment.Lawful where
  unsealData_sealData entropy toBeSealed sealedBlob sealed_ := by
    obtain ⟨plaintext, authenticatedData⟩ := toBeSealed
    obtain ⟨absent, same⟩ := Option.ite_none_right_eq_some.mp sealed_
    cases absent
    cases same
    rfl

end OneEntry

set_option maxRecDepth 4000 in
open OneEntry in
theorem applySealedBlob_sendSealedBlob_oneEntry :
    ∃ sealedState after restored,
      enclave.sendSealedBlob exampleCipher exampleEnvironment [] receiveContext .EPOCH
        ⟨List.replicate 12 5, rfl⟩ 0 =
        (.ok sealedState, after) ∧
      applySealedBlob exampleCipher exampleEnvironment [] .empty sealedState = (.ok (), restored) ∧
      restored.persistentMap = enclave.state.persistentMap := by
  have sent : enclave.sendSealedBlob exampleCipher exampleEnvironment [] receiveContext .EPOCH
      ⟨List.replicate 12 5, rfl⟩ 0 = (.ok _, _) := rfl
  obtain ⟨restored, applied, persistentMap, -, -⟩ :=
    applySealedBlob_sendSealedBlob cipher_lawful env_lawful rfl sent
  exact ⟨_, _, restored, sent, applied, persistentMap⟩

end Conclave.Enclave
