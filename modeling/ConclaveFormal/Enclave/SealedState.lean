import ConclaveFormal.Lib.AssocMap
import ConclaveFormal.Mail.StateIdHeader

/-!
# The sealed state

At the end of every receive the persistent map and the table of the state IDs
the clients have seen last are written into one blob, from which a later
instance of the enclave restores them.  The persistent map keeps the order in which
its keys were inserted; the order of the other table does not matter.
-/

set_option autoImplicit false

namespace Conclave.Enclave

open Conclave.Lib Restore
open Conclave.Mail (EnclaveStateId Curve25519PublicKey readEnclaveStateId
  readCurve25519PublicKey restores_stateId restores_publicKey)

structure PersistentState where
  persistentMap : AssocMap JString Bytes
  lastSeenStateIds : AssocMap Curve25519PublicKey EnclaveStateId

def PersistentState.empty : PersistentState := ⟨∅, ∅⟩

/-! ## Time stamps -/

structure Instant where
  epochSecond : Int
  nano : Nat
  seconds : -31557014167219200 ≤ epochSecond ∧ epochSecond ≤ 31556889864403199
  nanos : nano < 1000000000

namespace Instant

def EPOCH : Instant := ⟨0, 0, by decide, by decide⟩

def ofEpochSecond (epochSecond nanoAdjustment : Int) : Option Instant :=
  let second := epochSecond + nanoAdjustment / 1000000000
  let nano := (nanoAdjustment % 1000000000).toNat
  if seconds : -31557014167219200 ≤ second ∧ second ≤ 31556889864403199 then
    some ⟨second, nano, seconds, by omega⟩
  else none

def write (instant : Instant) : Bytes :=
  bigEndian 8 (BitVec.ofInt 64 instant.epochSecond).toNat ++ writeInt instant.nano

theorem ofEpochSecond_self (instant : Instant) :
    ofEpochSecond instant.epochSecond instant.nano = some instant := by
  obtain ⟨epochSecond, nano, seconds, nanos⟩ := instant
  have second : epochSecond + (nano : Int) / 1000000000 = epochSecond := by omega
  have fraction : ((nano : Int) % 1000000000).toNat = nano := by omega
  simp [ofEpochSecond, second, fraction, seconds]

end Instant

/-! ## Writing -/

inductive SealError where
  | illegalArgument
  | illegalState
  | outOfMemory
  | sealData
  deriving DecidableEq, Repr

/-- The entries of the persistent map, behind `persistentMapBytesWritten` bytes
of earlier ones.  A key beyond 65535 encoded bytes and a map beyond its capacity
are noticed only here. -/
def writePersistentMap (maxPersistentMapSize : Int) :
    Nat → List (Sigma fun _ : JString => Bytes) → Except SealError Bytes
  | _, [] => .ok []
  | persistentMapBytesWritten, ⟨key, value⟩ :: rest =>
      match writeUTF key with
      | .error _ => .error .illegalArgument
      | .ok utf =>
          let entry := utf ++ writeIntLengthPrefixBytes value
          let written := persistentMapBytesWritten + entry.length
          if (written : Int) ≤ maxPersistentMapSize then
            (writePersistentMap maxPersistentMapSize written rest).map (entry ++ ·)
          else .error .illegalState

def writeLastSeenStateId (entry : Sigma fun _ : Curve25519PublicKey => EnclaveStateId) : Bytes :=
  entry.1.encoded ++ entry.2.bytes

/-- The plaintext of the blob.  Its array ends at `Int.MAX_VALUE` bytes. -/
def PersistentState.serialise (state : PersistentState) (maxPersistentMapSize : Int)
    (stateId : EnclaveStateId) (now : Instant) : Except SealError Bytes :=
  match writePersistentMap maxPersistentMapSize 0 state.persistentMap.entries with
  | .error e => .error e
  | .ok persistentMap =>
      let serialised := [1] ++ stateId.bytes ++ now.write ++
        writeInt state.persistentMap.entries.length ++ persistentMap ++
        writeInt state.lastSeenStateIds.entries.length ++
        state.lastSeenStateIds.entries.flatMap writeLastSeenStateId
      if serialised.length ≤ 2147483647 then .ok serialised else .error .outOfMemory

/-! ## Restoring -/

def readPersistentEntry : Restore PersistentState Unit := do
  let key ← ofData readUTF
  let value ← readIntLengthPrefixBytes
  update fun state => { state with persistentMap := state.persistentMap.put key value }

def readLastSeenStateId : Restore PersistentState Unit := do
  let clientPublicKey ← readCurve25519PublicKey
  let lastSeenStateId ← readEnclaveStateId
  update fun state =>
    { state with
      lastSeenStateIds := state.lastSeenStateIds.insert clientPublicKey lastSeenStateId }

def applySealedState : Restore PersistentState Unit := do
  let version ← read
  check (version == 1) .illegalState
  let _ ← readEnclaveStateId
  let epochSecond ← ofData readLong
  let nano ← readInt
  check (Instant.ofEpochSecond epochSecond.toInt nano).isSome .dateTime
  let persistentEntries ← readInt
  repeatTimes persistentEntries.toNat readPersistentEntry
  let clients ← readInt
  repeatTimes clients.toNat readLastSeenStateId

/-! ## Round trip -/

def writePersistentEntry (entry : Sigma fun _ : JString => Bytes) : Bytes :=
  bigEndian 2 (encodeUtf entry.1).length ++ encodeUtf entry.1 ++
    writeIntLengthPrefixBytes entry.2

theorem writePersistentMap_eq_ok {maxPersistentMapSize : Int} {written : Nat}
    {entries : List (Sigma fun _ : JString => Bytes)} {bytes : Bytes}
    (ok : writePersistentMap maxPersistentMapSize written entries = .ok bytes) :
    bytes = entries.flatMap writePersistentEntry ∧
      ∀ entry ∈ entries, ∃ utf, writeUTF entry.1 = .ok utf := by
  induction entries generalizing written bytes with
  | nil =>
      cases ok
      exact ⟨rfl, by simp⟩
  | cons entry rest ih =>
      obtain ⟨key, value⟩ := entry
      rw [writePersistentMap] at ok
      cases utfEq : writeUTF key with
      | error e => simp [utfEq] at ok
      | ok utf =>
          simp only [utfEq] at ok
          split at ok
          · obtain ⟨later, tail, rfl⟩ : ∃ later,
                writePersistentMap maxPersistentMapSize
                  (written + (utf ++ writeIntLengthPrefixBytes value).length) rest =
                    .ok later ∧ utf ++ writeIntLengthPrefixBytes value ++ later = bytes := by
              cases tailEq : writePersistentMap maxPersistentMapSize
                  (written + (utf ++ writeIntLengthPrefixBytes value).length) rest with
              | error e =>
                  rw [tailEq] at ok
                  cases ok
              | ok later =>
                  rw [tailEq] at ok
                  cases ok
                  exact ⟨later, rfl, rfl⟩
            obtain ⟨laterEq, keys⟩ := ih tail
            refine ⟨?_, ?_⟩
            · rw [List.flatMap_cons, laterEq, writeUTF_eq_ok utfEq]
              rfl
            · intro other member
              rcases List.mem_cons.mp member with rfl | member
              · exact ⟨utf, utfEq⟩
              · exact keys other member
          · cases ok

theorem restores_persistentEntry {entry : Sigma fun _ : JString => Bytes} {utf : Bytes}
    (written : writeUTF entry.1 = .ok utf) (fits : entry.2.length < 2 ^ 31) :
    Restores readPersistentEntry (writePersistentEntry entry) () fun state =>
      { state with persistentMap := state.persistentMap.put entry.1 entry.2 } := by
  intro state rest
  have key : Restores (ofData (σ := PersistentState) readUTF) utf entry.1 id :=
    Restores.ofData fun rest => readUTF_writeUTF entry.1 utf rest written
  rw [writePersistentEntry, ← writeUTF_eq_ok written, List.append_assoc, readPersistentEntry,
    key.bind_apply, (Restores.readIntLengthPrefixBytes fits).bind_apply]
  rfl

theorem restores_lastSeenStateId (entry : Sigma fun _ : Curve25519PublicKey => EnclaveStateId) :
    Restores readLastSeenStateId (writeLastSeenStateId entry) () fun state =>
      { state with lastSeenStateIds := state.lastSeenStateIds.insert entry.1 entry.2 } := by
  intro state rest
  rw [writeLastSeenStateId, List.append_assoc, readLastSeenStateId,
    (restores_publicKey entry.1).bind_apply, (restores_stateId entry.2).bind_apply]
  rfl

theorem restores_epochSecond (instant : Instant) :
    Restores (ofData (σ := PersistentState) readLong)
      (bigEndian 8 (BitVec.ofInt 64 instant.epochSecond).toNat)
      (BitVec.ofInt 64 instant.epochSecond) id :=
  Restores.ofData (readLong_bigEndian _)

theorem toInt_epochSecond (instant : Instant) :
    (BitVec.ofInt 64 instant.epochSecond).toInt = instant.epochSecond := by
  obtain ⟨low, high⟩ := instant.seconds
  rw [BitVec.toInt_ofInt, Int.bmod_def]
  split <;> omega

theorem foldl_persistentMap (entries : List (Sigma fun _ : JString => Bytes))
    (state : PersistentState) :
    entries.foldl (fun state entry =>
        { state with persistentMap := state.persistentMap.put entry.1 entry.2 }) state =
      { state with persistentMap := AssocMap.putInOrder entries state.persistentMap } := by
  induction entries generalizing state with
  | nil => rfl
  | cons entry rest ih => exact ih _

theorem foldl_lastSeenStateIds
    (entries : List (Sigma fun _ : Curve25519PublicKey => EnclaveStateId))
    (state : PersistentState) :
    entries.foldl (fun state entry =>
        { state with
          lastSeenStateIds := state.lastSeenStateIds.insert entry.1 entry.2 }) state =
      { state with lastSeenStateIds := AssocMap.putAll entries state.lastSeenStateIds } := by
  induction entries generalizing state with
  | nil => rfl
  | cons entry rest ih => exact ih _

theorem restores_persistentMap {entries : List (Sigma fun _ : JString => Bytes)}
    (keys : ∀ entry ∈ entries, ∃ utf, writeUTF entry.1 = .ok utf)
    (fits : (entries.flatMap writePersistentEntry).length < 2 ^ 31) :
    Restores (repeatTimes entries.length readPersistentEntry)
      (entries.flatMap writePersistentEntry) () fun state =>
        { state with persistentMap := AssocMap.putInOrder entries state.persistentMap } := by
  simp only [← foldl_persistentMap]
  apply Restores.repeatTimes
  intro entry member
  obtain ⟨utf, written⟩ := keys entry member
  have whole : (writePersistentEntry entry).length ≤ _ := length_le_flatMap member
  have value : entry.2.length ≤ (writePersistentEntry entry).length := by
    simp [writePersistentEntry, writeIntLengthPrefixBytes]
    omega
  exact restores_persistentEntry written (by omega)

theorem restores_lastSeenStateIds
    (entries : List (Sigma fun _ : Curve25519PublicKey => EnclaveStateId)) :
    Restores (repeatTimes entries.length readLastSeenStateId)
      (entries.flatMap writeLastSeenStateId) () fun state =>
        { state with lastSeenStateIds := AssocMap.putAll entries state.lastSeenStateIds } := by
  simp only [← foldl_lastSeenStateIds]
  apply Restores.repeatTimes
  intro entry _
  exact restores_lastSeenStateId entry

/-- A serialised state fits into an array, so that each of its counts and sizes
fits into an `Int`. -/
theorem PersistentState.serialise_eq_ok {state : PersistentState} {maxPersistentMapSize : Int}
    {stateId : EnclaveStateId} {now : Instant} {serialised : Bytes}
    (ok : state.serialise maxPersistentMapSize stateId now = .ok serialised) :
    serialised = [1] ++ stateId.bytes ++ now.write ++
        writeInt state.persistentMap.entries.length ++
        state.persistentMap.entries.flatMap writePersistentEntry ++
        writeInt state.lastSeenStateIds.entries.length ++
        state.lastSeenStateIds.entries.flatMap writeLastSeenStateId ∧
      (∀ entry ∈ state.persistentMap.entries, ∃ utf, writeUTF entry.1 = .ok utf) ∧
      serialised.length < 2 ^ 31 := by
  unfold PersistentState.serialise at ok
  cases mapEq : writePersistentMap maxPersistentMapSize 0 state.persistentMap.entries with
  | error e =>
      rw [mapEq] at ok
      cases ok
  | ok persistentMap =>
      obtain ⟨rfl, keys⟩ := writePersistentMap_eq_ok mapEq
      simp only [mapEq] at ok
      split at ok
      · rename_i fits
        cases ok
        exact ⟨rfl, keys, by omega⟩
      · cases ok

theorem applySealedState_serialise {state : PersistentState} {maxPersistentMapSize : Int}
    {stateId : EnclaveStateId} {now : Instant} {serialised : Bytes}
    (ok : state.serialise maxPersistentMapSize stateId now = .ok serialised) :
    applySealedState (PersistentState.empty, serialised) =
      (.ok (), (⟨state.persistentMap, AssocMap.putAll state.lastSeenStateIds.entries ∅⟩,
        [])) := by
  obtain ⟨layout, keys, fits⟩ := state.serialise_eq_ok ok
  have version : (((1 : UInt8).toNat : Int) == 1) = true := by decide
  have instant : (Instant.ofEpochSecond (BitVec.ofInt 64 now.epochSecond).toInt
      now.nano).isSome = true := by
    rw [toInt_epochSecond, Instant.ofEpochSecond_self]
    rfl
  have sizes : (state.persistentMap.entries.flatMap writePersistentEntry).length < 2 ^ 31 ∧
      (state.lastSeenStateIds.entries.flatMap writeLastSeenStateId).length < 2 ^ 31 := by
    rw [layout] at fits
    simp only [List.length_append] at fits
    omega
  have persistentCount : state.persistentMap.entries.length ≤
      (state.persistentMap.entries.flatMap writePersistentEntry).length :=
    count_le_flatMap fun entry _ => by simp [writePersistentEntry]
  have clientCount : state.lastSeenStateIds.entries.length ≤
      (state.lastSeenStateIds.entries.flatMap writeLastSeenStateId).length :=
    count_le_flatMap fun entry _ => by simp [writeLastSeenStateId, entry.1.size]
  have clients := restores_lastSeenStateIds state.lastSeenStateIds.entries
    ⟨AssocMap.putInOrder state.persistentMap.entries ∅, ∅⟩ []
  rw [List.append_nil] at clients
  rw [layout, applySealedState]
  simp only [List.append_assoc, Instant.write]
  rw [(Restores.read 1).bind_apply, Restores.check_bind version,
    (restores_stateId stateId).bind_apply, (restores_epochSecond now).bind_apply,
    (Restores.readInt (show now.nano < 2 ^ 31 by have := now.nanos; omega)).bind_apply,
    Restores.check_bind instant,
    (Restores.readInt (persistentCount.trans_lt sizes.1)).bind_apply, Int.toNat_natCast,
    (restores_persistentMap keys sizes.1).bind_apply,
    (Restores.readInt (clientCount.trans_lt sizes.2)).bind_apply, Int.toNat_natCast]
  refine Eq.trans clients ?_
  rw [AssocMap.putInOrder_entries]

end Conclave.Enclave
