import ConclaveFormal.Enclave.SealedState

/-!
# Receive contexts

What an enclave with a persistent map does around one execution of `receiveMail`
or `receiveFromUntrustedHost`: the context with the new state ID, the private
headers of the mail created in it, and the sealed state at its end.  Such an
enclave is not thread safe, so there is at most one context at a time, and
creating or posting mail, which are user code, come in any number and order.
-/

set_option autoImplicit false

namespace Conclave.Enclave

open Conclave.Lib
open Conclave.Mail (EnclaveStateId Curve25519PublicKey StateIdHeader)

/-- `pendingPostMails` is an `Int` that wraps around. -/
structure ReceiveContext where
  stateId : EnclaveStateId
  outboundClients : List Curve25519PublicKey
  pendingPostMails : Int

def ReceiveContext.new (stateId : EnclaveStateId) : ReceiveContext := ⟨stateId, [], 0⟩

structure EnclaveInstance where
  state : PersistentState
  currentReceiveContext : Option ReceiveContext

/-- How the user's code left the receive; it returns at the given time, and the
platform may fail to seal. -/
inductive ReceiveEnd where
  | threw
  | returned (now : Instant) (sealDataThrows : Bool)

inductive ReceiveError where
  | receiveMethod
  | pendingPostMails
  | sealing (error : SealError)
  deriving DecidableEq, Repr

namespace EnclaveInstance

def new : EnclaveInstance := ⟨PersistentState.empty, none⟩

/-- The enclave started from an unsealed blob.  It counts as started even where
the blob could not be applied, with what was applied of it. -/
def start (unsealed : Option Bytes) : EnclaveInstance :=
  match unsealed with
  | none => new
  | some plaintext => ⟨(applySealedState (PersistentState.empty, plaintext)).2.1, none⟩

/-- `none` is the exception for a receive inside another one. -/
def beginReceive (enclave : EnclaveInstance) (stateId : EnclaveStateId) : Option EnclaveInstance :=
  match enclave.currentReceiveContext with
  | none => some { enclave with currentReceiveContext := some (ReceiveContext.new stateId) }
  | some _ => none

def getMailPrivateHeader (enclave : EnclaveInstance) (receiveContext : ReceiveContext)
    (publicKey : Curve25519PublicKey) : Bytes × ReceiveContext :=
  (StateIdHeader.write
      ⟨receiveContext.stateId, enclave.state.lastSeenStateIds.lookup publicKey⟩,
    { receiveContext with
      outboundClients := receiveContext.outboundClients.insert publicKey })

/-- The private header of session mail; mail created outside of a receive has none. -/
def privateHeader (enclave : EnclaveInstance) (destinationPublicKey : Curve25519PublicKey) :
    Option Bytes × EnclaveInstance :=
  match enclave.currentReceiveContext with
  | none => (none, enclave)
  | some receiveContext =>
      let pending :=
        { receiveContext with pendingPostMails := wrap32 (receiveContext.pendingPostMails + 1) }
      let (header, receiveContext) := enclave.getMailPrivateHeader pending destinationPublicKey
      (some header, { enclave with currentReceiveContext := some receiveContext })

/-- Any bytes that are posted count, whether they are session mail or not. -/
def postMail (enclave : EnclaveInstance) : EnclaveInstance :=
  { enclave with
    currentReceiveContext := enclave.currentReceiveContext.map fun receiveContext =>
      { receiveContext with pendingPostMails := wrap32 (receiveContext.pendingPostMails - 1) } }

def setPersistentMap (enclave : EnclaveInstance) (map : AssocMap JString Bytes) : EnclaveInstance :=
  { enclave with state := { enclave.state with persistentMap := map } }

/-- For every client that has outbound mail, its last seen state ID becomes the
new one. -/
def updateLastSeenStateIds (enclave : EnclaveInstance) (receiveContext : ReceiveContext) :
    PersistentState :=
  { enclave.state with
    lastSeenStateIds := AssocMap.putKeys receiveContext.outboundClients
      receiveContext.stateId enclave.state.lastSeenStateIds }

/-- The table of last seen IDs is changed first, and stays changed when the
state cannot be serialised or sealed. -/
def sendSealedState (enclave : EnclaveInstance) (receiveContext : ReceiveContext)
    (maxPersistentMapSize : Int) (now : Instant) (sealDataThrows : Bool) :
    Except SealError Bytes × EnclaveInstance :=
  let state := enclave.updateLastSeenStateIds receiveContext
  let enclave := { enclave with state := state }
  match state.serialise maxPersistentMapSize receiveContext.stateId now with
  | .error e => (.error e, enclave)
  | .ok serialised =>
      if sealDataThrows then (.error .sealData, enclave) else (.ok serialised, enclave)

/-- The end of `executeReceive`, with the plaintext that was sealed. -/
def endReceive (enclave : EnclaveInstance) (receiveContext : ReceiveContext)
    (maxPersistentMapSize : Int) (ending : ReceiveEnd) :
    Except ReceiveError Bytes × EnclaveInstance :=
  let enclave := { enclave with currentReceiveContext := none }
  match ending with
  | .threw => (.error .receiveMethod, enclave)
  | .returned now sealDataThrows =>
      if receiveContext.pendingPostMails = 0 then
        match enclave.sendSealedState receiveContext maxPersistentMapSize now sealDataThrows with
        | (.ok serialised, enclave) => (.ok serialised, enclave)
        | (.error e, enclave) => (.error (.sealing e), enclave)
      else (.error .pendingPostMails, enclave)

/-! ## What the operations do to the table of last seen state IDs -/

/-- What the enclave holds for the ID a client has seen last. -/
def lastSeen (enclave : EnclaveInstance) (client : Curve25519PublicKey) : Option EnclaveStateId :=
  enclave.state.lastSeenStateIds.lookup client

/-- The receive gets as far as `sendSealedState`. -/
def reachesSealing (receiveContext : ReceiveContext) : ReceiveEnd → Bool
  | .threw => false
  | .returned _ _ => receiveContext.pendingPostMails == 0

@[simp] theorem lastSeen_new (client : Curve25519PublicKey) : new.lastSeen client = none := rfl

theorem beginReceive_eq_some {enclave next : EnclaveInstance} {stateId : EnclaveStateId}
    (began : enclave.beginReceive stateId = some next) :
    enclave.currentReceiveContext = none ∧
      next = ⟨enclave.state, some (ReceiveContext.new stateId)⟩ := by
  unfold beginReceive at began
  split at began
  · rename_i idle
    cases began
    exact ⟨idle, rfl⟩
  · cases began

theorem privateHeader_receiving {enclave : EnclaveInstance} {receiveContext : ReceiveContext}
    (receiving : enclave.currentReceiveContext = some receiveContext)
    (client : Curve25519PublicKey) :
    enclave.privateHeader client =
      (some (StateIdHeader.write ⟨receiveContext.stateId, enclave.lastSeen client⟩),
        ⟨enclave.state, some ⟨receiveContext.stateId, receiveContext.outboundClients.insert client,
          wrap32 (receiveContext.pendingPostMails + 1)⟩⟩) := by
  simp only [privateHeader, receiving]
  rfl

theorem privateHeader_idle {enclave : EnclaveInstance} (idle : enclave.currentReceiveContext = none)
    (client : Curve25519PublicKey) : enclave.privateHeader client = (none, enclave) := by
  simp only [privateHeader, idle]

/-- The end of a receive that does not get as far as sealing changes nothing but
the context. -/
theorem endReceive_stopped (enclave : EnclaveInstance) {receiveContext : ReceiveContext}
    (maxPersistentMapSize : Int) {ending : ReceiveEnd}
    (stopped : reachesSealing receiveContext ending = false) :
    ∃ error, enclave.endReceive receiveContext maxPersistentMapSize ending =
      (.error error, ⟨enclave.state, none⟩) := by
  cases ending with
  | threw => exact ⟨_, rfl⟩
  | returned now sealDataThrows =>
      have pending : ¬ receiveContext.pendingPostMails = 0 := by
        simpa [reachesSealing] using stopped
      exact ⟨.pendingPostMails, by simp only [endReceive, if_neg pending]⟩

/-- One that does records its state ID, whether the sealing succeeds or not. -/
theorem endReceive_sealing (enclave : EnclaveInstance) {receiveContext : ReceiveContext}
    (maxPersistentMapSize : Int) {ending : ReceiveEnd}
    (reaches : reachesSealing receiveContext ending = true) :
    ∃ result now, enclave.endReceive receiveContext maxPersistentMapSize ending =
        (result, ⟨enclave.updateLastSeenStateIds receiveContext, none⟩) ∧
      ∀ serialised, result = .ok serialised →
        (enclave.updateLastSeenStateIds receiveContext).serialise maxPersistentMapSize
          receiveContext.stateId now = .ok serialised := by
  cases ending with
  | threw => cases reaches
  | returned now sealDataThrows =>
      have posted : receiveContext.pendingPostMails = 0 := by
        simpa [reachesSealing] using reaches
      have sameState : EnclaveInstance.updateLastSeenStateIds ⟨enclave.state, none⟩
          receiveContext = enclave.updateLastSeenStateIds receiveContext := rfl
      cases serialisedEq : (enclave.updateLastSeenStateIds receiveContext).serialise
          maxPersistentMapSize receiveContext.stateId now with
      | error e =>
          refine ⟨.error (.sealing e), now, ?_, by simp⟩
          simp [endReceive, posted, sendSealedState, sameState, serialisedEq]
      | ok serialised =>
          cases sealDataThrows with
          | true =>
              refine ⟨.error (.sealing .sealData), now, ?_, by simp⟩
              simp [endReceive, posted, sendSealedState, sameState, serialisedEq]
          | false =>
              refine ⟨.ok serialised, now, ?_, ?_⟩
              · simp [endReceive, posted, sendSealedState, sameState, serialisedEq]
              · intro other same
                cases same
                exact serialisedEq

theorem lookup_updateLastSeenStateIds (enclave : EnclaveInstance)
    (receiveContext : ReceiveContext) (client : Curve25519PublicKey) :
    (enclave.updateLastSeenStateIds receiveContext).lastSeenStateIds.lookup client =
      if client ∈ receiveContext.outboundClients then some receiveContext.stateId
      else enclave.lastSeen client :=
  AssocMap.lookup_putKeys receiveContext.outboundClients receiveContext.stateId
    enclave.state.lastSeenStateIds client

/-- An enclave started from a sealed state knows what the one that sealed it knew. -/
theorem lastSeen_start {state : PersistentState} {maxPersistentMapSize : Int}
    {stateId : EnclaveStateId} {now : Instant} {serialised : Bytes}
    (ok : state.serialise maxPersistentMapSize stateId now = .ok serialised)
    (client : Curve25519PublicKey) :
    (start (some serialised)).lastSeen client = state.lastSeenStateIds.lookup client := by
  rw [start, applySealedState_serialise ok]
  exact AssocMap.lookup_putAll_entries state.lastSeenStateIds client

end EnclaveInstance

end Conclave.Enclave
