import ConclaveFormal.Enclave.PersistencePolicy
import ConclaveFormal.Host.KdsCache
import ConclaveFormal.Lib.Transition

/-!
# The persistence key that a KDS provides

The host asks the enclave which key it wants, gets it from the KDS and hands it in.  From then on
the enclave shows the instance info of the KDS to its users, as a proof of what guards its data.
-/

set_option autoImplicit false

namespace Conclave.Enclave.KdsPersistenceKey

open Conclave.Lib BufferReader Conclave.Lib.Json Conclave.Mail Conclave.Common
  Conclave.Common.EnclaveConstraint Conclave.Attestation

structure EnclaveKdsConfig where
  kdsEnclaveConstraint : EnclaveConstraint
  persistenceKeySpec : Option PersistenceKeySpec

/-- `persistenceKeySpec` is a part of the KDS configuration.  The report on the enclave is always
the same, and so is the key that it derives on this machine. -/
structure Environment extends KdsEnvironment where
  persistenceKeySpec : Option PersistenceKeySpec
  reportBody : Cursor SgxReportBody
  releaseMode : Bool
  localSecretKey : Bytes

namespace Environment

def kdsConfiguration (env : Environment) : Option EnclaveKdsConfig :=
  env.kdsEnclaveConstraint.map fun constraint => ⟨constraint, env.persistenceKeySpec⟩

/-- `kdsConfiguration?.persistenceKeySpec` -/
def configuredKeySpec (env : Environment) : Option PersistenceKeySpec :=
  env.kdsConfiguration.bind EnclaveKdsConfig.persistenceKeySpec

end Environment

variable (env : Environment)

/-! ## The fields of the enclave -/

inductive KeySource where
  | localSecretKey
  | response (response : KdsPrivateKeyResponse env.toKdsEnvironment) (now : Instant)

/-- Where the bytes have been taken from is for the specification only. -/
structure AesPersistenceKey where
  bytes : Bytes
  source : KeySource env

/-- `none` is also a `lateinit` field that has not been initialised. -/
structure State where
  kdsEiiForPersistence : Option (EnclaveInstanceInfoImpl env.P)
  aesPersistenceKey : Option (AesPersistenceKey env)
  persistenceKdsKeySpec : Option KDSKeySpec

def State.initial : State env := ⟨none, none, none⟩

/-! ## The handlers -/

inductive Exception where
  | policyConstraint (cause : ConstraintError)
  | keySpec (cause : BufferError)
  | replySize
  | alreadyReceived
  | notConfigured
  | unreadable (cause : BufferError)
  | uninitialisedKeySpec
  | response (cause : ResponseError)
  | enclaveStart

def KDS_PERSISTENCE_KEY_NAME : JString := jstring "EnclavePersistence"

def requestedKeySpec (persistenceKeySpec : PersistenceKeySpec) : Except Exception KDSKeySpec := do
  let policyConstraint ←
    (buildPersistencePolicyConstraint env.P.digit env.reportBody persistenceKeySpec).mapError
      .policyConstraint
  let (keySpec, _) ← (KDSKeySpec.new env.P.digit KDS_PERSISTENCE_KEY_NAME
    persistenceKeySpec.masterKeyType policyConstraint []).mapError .keySpec
  return keySpec

def keySpecReply (keySpec : KDSKeySpec) : Bytes :=
  writeIntLengthPrefixBytes (encodeUtf8 keySpec.name) ++
    keySpec.masterKeyType.id :: encodeUtf8 keySpec.policyConstraint

/-- The fields after the call stay changed if it has thrown. -/
def getKdsPersistenceKeySpec (state : State env) :
    Except Exception (Option Bytes) × State env :=
  match env.configuredKeySpec with
  | none => (.ok none, state)
  | some persistenceKeySpec =>
      match requestedKeySpec env persistenceKeySpec with
      | .error e => (.error e, state)
      | .ok keySpec =>
          let state := { state with persistenceKdsKeySpec := some keySpec }
          if (keySpecReply keySpec).length < 2 ^ 31 then (.ok (some (keySpecReply keySpec)), state)
          else (.error .replySize, state)

/-- `ByteArray.copyOf` -/
def copyOf (bytes : Bytes) (newSize : Nat) : Bytes :=
  (bytes ++ List.replicate newSize 0).take newSize

/-- The instance info is on record by the time the response is checked. -/
def takePrivateKey (now : Instant) (kdsConfig : EnclaveKdsConfig)
    (privateKeyResponse : KdsPrivateKeyResponse env.toKdsEnvironment) (state : State env) :
    Except Exception Unit × State env :=
  match state.persistenceKdsKeySpec with
  | none => (.error .uninitialisedKeySpec, state)
  | some expectedKeySpec =>
      match privateKeyResponse.getPrivateKey now kdsConfig.kdsEnclaveConstraint
          expectedKeySpec with
      | .error e => (.error (.response e), state)
      | .ok kdsPersistenceKey =>
          (.ok (), { state with
            aesPersistenceKey :=
              some ⟨copyOf kdsPersistenceKey 16, .response privateKeyResponse now⟩ })

def setKdsPersistenceKey (now : Instant) (parameterBuffer : Bytes) (state : State env) :
    Except Exception Unit × State env :=
  match state.kdsEiiForPersistence, env.kdsConfiguration with
  | some _, _ => (.error .alreadyReceived, state)
  | none, none => (.error .notConfigured, state)
  | none, some kdsConfig =>
      match getKdsPrivateKeyResponse env.toKdsEnvironment parameterBuffer with
      | .error e => (.error (.unreadable e), state)
      | .ok (privateKeyResponse, _) =>
          takePrivateKey env now kdsConfig privateKeyResponse { state with
            kdsEiiForPersistence := some privateKeyResponse.kdsEnclaveInstanceInfo }

/-- A part of the start of the enclave. -/
def initialiseLocalPersistenceKeyIfNecessary (state : State env) :
    Except Exception Unit × State env :=
  match state.aesPersistenceKey with
  | some _ => (.ok (), state)
  | none =>
      if env.configuredKeySpec.isSome ∧ env.releaseMode then (.error .enclaveStart, state)
      else
        (.ok (), { state with aesPersistenceKey := some ⟨env.localSecretKey, .localSecretKey⟩ })

/-! ## Runs -/

/-- What the host calls; the time is that of the call. -/
inductive Call where
  | getSpec
  | setKey (now : Instant) (parameterBuffer : Bytes)
  | start

/-- Whether the call has returned, and the fields that it has left behind. -/
def perform (state : State env) : Call → Bool × State env
  | .getSpec =>
      let (result, after) := getKdsPersistenceKeySpec env state
      (result.toBool, after)
  | .setKey now parameterBuffer =>
      let (result, after) := setKdsPersistenceKey env now parameterBuffer state
      (result.toBool, after)
  | .start =>
      let (result, after) := initialiseLocalPersistenceKeyIfNecessary env state
      (result.toBool, after)

def step (state : State env) (call : Call) : Option (State env) :=
  some (perform env state call).2

variable {env}

/-! ## What the two fields say -/

/-- The key specification that the enclave asks the KDS for. -/
def AsksFor (env : Environment) (keySpec : KDSKeySpec) : Prop :=
  ∃ persistenceKeySpec, env.configuredKeySpec = some persistenceKeySpec ∧
    requestedKeySpec env persistenceKeySpec = .ok keySpec

/-- The key has been taken from a response with this instance info that passed all the checks. -/
def TakenFrom (aesPersistenceKey : Option (AesPersistenceKey env))
    (info : EnclaveInstanceInfoImpl env.P) : Prop :=
  ∃ response now constraint keySpec kdsPersistenceKey,
    aesPersistenceKey = some ⟨copyOf kdsPersistenceKey 16, .response response now⟩ ∧
      response.kdsEnclaveInstanceInfo = info ∧ env.kdsEnclaveConstraint = some constraint ∧
      AsksFor env keySpec ∧
      KdsPrivateKeyResponse.getPrivateKey response now constraint keySpec = .ok kdsPersistenceKey

/-- The users are shown the KDS that the key has been taken from, and none otherwise. -/
def Matches (state : State env) : Prop :=
  ∀ info, state.kdsEiiForPersistence = some info ↔ TakenFrom state.aesPersistenceKey info

/-- A call that throws leaves the two fields as they were, and a response that the enclave would
have accepted before is accepted still. -/
def Harmless (state : State env) (call : Call) : Prop :=
  ∀ after, perform env state call = (false, after) →
    after.kdsEiiForPersistence = state.kdsEiiForPersistence ∧
      after.aesPersistenceKey = state.aesPersistenceKey ∧
      ∀ now parameterBuffer, (perform env state (.setKey now parameterBuffer)).1 →
        (perform env after (.setKey now parameterBuffer)).1

/-- The enclave can read the response and puts it on record, as it has none yet. -/
structure Records (state : State env) (parameterBuffer : Bytes) (kdsConfig : EnclaveKdsConfig)
    (response : KdsPrivateKeyResponse env.toKdsEnvironment) : Prop where
  first : state.kdsEiiForPersistence = none
  configured : env.kdsConfiguration = some kdsConfig
  parsed : ∃ rest,
    getKdsPrivateKeyResponse env.toKdsEnvironment parameterBuffer = .ok (response, rest)

/-- The response passes all the checks, for the key that the host has asked about. -/
def Passes (state : State env) (now : Instant) (kdsConfig : EnclaveKdsConfig)
    (response : KdsPrivateKeyResponse env.toKdsEnvironment) : Prop :=
  ∃ keySpec kdsPersistenceKey, state.persistenceKdsKeySpec = some keySpec ∧
    response.getPrivateKey now kdsConfig.kdsEnclaveConstraint keySpec = .ok kdsPersistenceKey

def PassesIfRecorded (state : State env) : Call → Prop
  | .setKey now parameterBuffer => ∀ kdsConfig response,
      Records state parameterBuffer kdsConfig response → Passes state now kdsConfig response
  | _ => True

/-- Once the host has asked, the enclave knows what it asks for. -/
def SpecSound (state : State env) : Prop :=
  ∀ keySpec, state.persistenceKdsKeySpec = some keySpec → AsksFor env keySpec

theorem AsksFor.unique {first second : KDSKeySpec} (asks : AsksFor env first)
    (again : AsksFor env second) : first = second := by
  obtain ⟨persistenceKeySpec, configured, requested⟩ := asks
  obtain ⟨other, otherwise, same⟩ := again
  rw [configured] at otherwise
  cases otherwise
  rw [requested] at same
  cases same
  rfl

theorem specSound_initial : SpecSound (State.initial env) := by
  intro keySpec known
  cases known

theorem matches_initial : Matches (State.initial env) := by
  intro info
  constructor
  · intro recorded
    cases recorded
  · rintro ⟨response, now, constraint, keySpec, key, taken, -⟩
    cases taken

/-! ## What a call does -/

variable {state after : State env}

/-- The host is told what the enclave asks for; that changes neither of the two fields. -/
theorem getKdsPersistenceKeySpec_cases (state : State env) :
    (getKdsPersistenceKeySpec env state).2 = state ∨
      ∃ keySpec, AsksFor env keySpec ∧ (getKdsPersistenceKeySpec env state).2 =
        { state with persistenceKdsKeySpec := some keySpec } := by
  rw [getKdsPersistenceKeySpec]
  cases configured : env.configuredKeySpec with
  | none => left; rfl
  | some persistenceKeySpec =>
      cases requested : requestedKeySpec env persistenceKeySpec with
      | error e =>
          simp only [requested, true_or]
      | ok keySpec =>
          simp only [requested]
          refine Or.inr ⟨keySpec, ⟨persistenceKeySpec, configured, requested⟩, ?_⟩
          split
          · rfl
          · rfl

section SetKey

variable {now : Instant} {parameterBuffer : Bytes} {kdsConfig : EnclaveKdsConfig}
  {response : KdsPrivateKeyResponse env.toKdsEnvironment}

theorem Records.unique (records : Records state parameterBuffer kdsConfig response)
    {otherConfig : EnclaveKdsConfig} {other : KdsPrivateKeyResponse env.toKdsEnvironment}
    (again : Records state parameterBuffer otherConfig other) :
    otherConfig = kdsConfig ∧ other = response := by
  obtain ⟨rest, parsed⟩ := records.parsed
  obtain ⟨otherRest, same⟩ := again.parsed
  have config := again.configured
  rw [records.configured] at config
  rw [parsed] at same
  cases config
  cases same
  exact ⟨rfl, rfl⟩

/-- A call that cannot read a response changes nothing. -/
theorem setKdsPersistenceKey_refused
    (refused : ¬∃ kdsConfig response, Records state parameterBuffer kdsConfig response) :
    ∃ e, setKdsPersistenceKey env now parameterBuffer state = (.error e, state) := by
  unfold setKdsPersistenceKey
  cases first : state.kdsEiiForPersistence with
  | some info => exact ⟨_, rfl⟩
  | none =>
      cases configured : env.kdsConfiguration with
      | none => exact ⟨_, rfl⟩
      | some kdsConfig =>
          cases parsed : getKdsPrivateKeyResponse env.toKdsEnvironment parameterBuffer with
          | error e => exact ⟨_, rfl⟩
          | ok value =>
              exact absurd ⟨kdsConfig, value.1, first, configured, value.2, parsed⟩ refused

theorem setKdsPersistenceKey_records (records : Records state parameterBuffer kdsConfig response) :
    setKdsPersistenceKey env now parameterBuffer state =
      takePrivateKey env now kdsConfig response { state with
        kdsEiiForPersistence := some response.kdsEnclaveInstanceInfo } := by
  obtain ⟨rest, parsed⟩ := records.parsed
  simp only [setKdsPersistenceKey, records.first, records.configured, parsed]

/-- The key of a response that passes is taken. -/
theorem setKdsPersistenceKey_passes (records : Records state parameterBuffer kdsConfig response)
    (passes : Passes state now kdsConfig response) :
    ∃ keySpec kdsPersistenceKey, state.persistenceKdsKeySpec = some keySpec ∧
      response.getPrivateKey now kdsConfig.kdsEnclaveConstraint keySpec = .ok kdsPersistenceKey ∧
      setKdsPersistenceKey env now parameterBuffer state = (.ok (),
        { state with
          kdsEiiForPersistence := some response.kdsEnclaveInstanceInfo
          aesPersistenceKey := some ⟨copyOf kdsPersistenceKey 16, .response response now⟩ }) := by
  obtain ⟨keySpec, kdsPersistenceKey, known, key⟩ := passes
  refine ⟨keySpec, kdsPersistenceKey, known, key, ?_⟩
  rw [setKdsPersistenceKey_records records]
  simp only [takePrivateKey, known, key]

/-- One that does not pass stays on record. -/
theorem setKdsPersistenceKey_fails (records : Records state parameterBuffer kdsConfig response)
    (fails : ¬Passes state now kdsConfig response) :
    ∃ e, setKdsPersistenceKey env now parameterBuffer state = (.error e,
      { state with kdsEiiForPersistence := some response.kdsEnclaveInstanceInfo }) := by
  rw [setKdsPersistenceKey_records records]
  unfold takePrivateKey
  cases known : state.persistenceKdsKeySpec with
  | none => exact ⟨_, rfl⟩
  | some keySpec =>
      cases key : response.getPrivateKey now kdsConfig.kdsEnclaveConstraint keySpec with
      | error e =>
          simp only [key]
          exact ⟨_, rfl⟩
      | ok kdsPersistenceKey => exact absurd ⟨keySpec, kdsPersistenceKey, known, key⟩ fails

/-- The enclave accepts only what it records and what passes. -/
theorem records_of_returns
    (returned : (perform env state (.setKey now parameterBuffer)).1 = true) :
    ∃ kdsConfig response, Records state parameterBuffer kdsConfig response ∧
      Passes state now kdsConfig response := by
  by_contra neither
  have threw : (perform env state (.setKey now parameterBuffer)).1 = false := by
    by_cases recorded : ∃ kdsConfig response, Records state parameterBuffer kdsConfig response
    · obtain ⟨kdsConfig, response, records⟩ := recorded
      have fails : ¬Passes state now kdsConfig response := by
        intro passes
        exact neither ⟨kdsConfig, response, records, passes⟩
      obtain ⟨e, same⟩ := setKdsPersistenceKey_fails records fails
      simp only [perform, same]
      rfl
    · obtain ⟨e, same⟩ := @setKdsPersistenceKey_refused env state now _ recorded
      simp only [perform, same]
      rfl
  rw [returned] at threw
  cases threw

theorem returns_of_passes (records : Records state parameterBuffer kdsConfig response)
    (passes : Passes state now kdsConfig response) :
    (perform env state (.setKey now parameterBuffer)).1 = true := by
  obtain ⟨keySpec, key, -, -, taken⟩ := setKdsPersistenceKey_passes records passes
  simp only [perform, taken]
  rfl

end SetKey

theorem initialise_cases (state : State env) :
    (initialiseLocalPersistenceKeyIfNecessary env state).2 = state ∨
      state.aesPersistenceKey = none ∧
        initialiseLocalPersistenceKeyIfNecessary env state = (.ok (),
          { state with aesPersistenceKey := some ⟨env.localSecretKey, .localSecretKey⟩ }) := by
  unfold initialiseLocalPersistenceKeyIfNecessary
  cases missing : state.aesPersistenceKey with
  | some key => left; rfl
  | none =>
      by_cases refused : env.configuredKeySpec.isSome ∧ env.releaseMode
      · left
        simp only [if_pos refused]
      · right
        simp only [if_neg refused, and_self]

/-! ## What one call keeps -/

theorem SpecSound.perform (sound : SpecSound state) (call : Call) :
    SpecSound (perform env state call).2 := by
  cases call with
  | getSpec =>
      rcases getKdsPersistenceKeySpec_cases state with same | ⟨keySpec, asks, same⟩
      · simp only [KdsPersistenceKey.perform, same]
        exact sound
      · simp only [KdsPersistenceKey.perform, same]
        intro other known
        cases known
        exact asks
  | setKey now parameterBuffer =>
      by_cases recorded : ∃ kdsConfig response, Records state parameterBuffer kdsConfig response
      · obtain ⟨kdsConfig, response, records⟩ := recorded
        by_cases passes : Passes state now kdsConfig response
        · obtain ⟨keySpec, key, -, -, taken⟩ := setKdsPersistenceKey_passes records passes
          simp only [KdsPersistenceKey.perform, taken]
          exact sound
        · obtain ⟨e, same⟩ := setKdsPersistenceKey_fails records passes
          simp only [KdsPersistenceKey.perform, same]
          exact sound
      · obtain ⟨e, same⟩ := @setKdsPersistenceKey_refused env state now _ recorded
        simp only [KdsPersistenceKey.perform, same]
        exact sound
  | start =>
      rcases initialise_cases state with same | ⟨-, same⟩
      · simp only [KdsPersistenceKey.perform, same]
        exact sound
      · simp only [KdsPersistenceKey.perform, same]
        exact sound

theorem not_takenFrom_none (info : EnclaveInstanceInfoImpl env.P) :
    ¬TakenFrom (none : Option (AesPersistenceKey env)) info := by
  rintro ⟨response, now, constraint, keySpec, key, taken, -⟩
  cases taken

theorem not_takenFrom_local (bytes : Bytes) (info : EnclaveInstanceInfoImpl env.P) :
    ¬TakenFrom (some ⟨bytes, .localSecretKey⟩ : Option (AesPersistenceKey env)) info := by
  rintro ⟨response, now, constraint, keySpec, key, taken, -⟩
  cases taken

theorem Matches.of_passes {now : Instant} {parameterBuffer : Bytes} {kdsConfig : EnclaveKdsConfig}
    {response : KdsPrivateKeyResponse env.toKdsEnvironment} (sound : SpecSound state)
    (records : Records state parameterBuffer kdsConfig response)
    (passes : Passes state now kdsConfig response) :
    Matches (perform env state (.setKey now parameterBuffer)).2 := by
  obtain ⟨keySpec, key, known, passed, taken⟩ := setKdsPersistenceKey_passes records passes
  obtain ⟨constraint, configured, rfl⟩ := Option.map_eq_some_iff.mp records.configured
  simp only [perform, taken]
  intro info
  constructor
  · intro same
    exact ⟨response, now, constraint, keySpec, key, rfl, Option.some.inj same, configured,
      sound keySpec known, passed⟩
  · rintro ⟨other, later, otherConstraint, otherSpec, otherKey, same, rfl, -⟩
    have source := congrArg AesPersistenceKey.source (Option.some.inj same)
    cases source
    rfl

/-- A call keeps the two fields together exactly if it records no response that fails. -/
theorem passesIfRecorded_iff (sound : SpecSound state) (kept : Matches state) (call : Call) :
    PassesIfRecorded state call ↔ Matches (perform env state call).2 := by
  cases call with
  | getSpec =>
      refine iff_of_true trivial ?_
      rcases getKdsPersistenceKeySpec_cases state with same | ⟨keySpec, -, same⟩
      · simp only [perform, same]
        exact kept
      · simp only [perform, same]
        exact kept
  | start =>
      refine iff_of_true trivial ?_
      rcases initialise_cases state with same | ⟨missing, same⟩
      · simp only [perform, same]
        exact kept
      · simp only [perform, same]
        intro info
        rw [kept info, missing]
        exact iff_of_false (not_takenFrom_none info) (not_takenFrom_local _ info)
  | setKey now parameterBuffer =>
      by_cases recorded : ∃ kdsConfig response, Records state parameterBuffer kdsConfig response
      · obtain ⟨kdsConfig, response, records⟩ := recorded
        by_cases passes : Passes state now kdsConfig response
        · refine iff_of_true ?_ (Matches.of_passes sound records passes)
          intro otherConfig other again
          obtain ⟨rfl, rfl⟩ := records.unique again
          exact passes
        · obtain ⟨e, same⟩ := setKdsPersistenceKey_fails records passes
          simp only [perform, same]
          refine iff_of_false ?_ ?_
          · intro condition
            exact passes (condition kdsConfig response records)
          · intro holds
            have taken := (holds response.kdsEnclaveInstanceInfo).mp rfl
            have before := (kept response.kdsEnclaveInstanceInfo).mpr taken
            rw [records.first] at before
            cases before
      · obtain ⟨e, same⟩ := @setKdsPersistenceKey_refused env state now _ recorded
        simp only [perform, same]
        refine iff_of_true ?_ kept
        intro kdsConfig response records
        exact absurd ⟨kdsConfig, response, records⟩ recorded

/-- What the host is told does not make the enclave refuse a response. -/
theorem returns_of_asked {now : Instant} {parameterBuffer : Bytes} {keySpec : KDSKeySpec}
    (sound : SpecSound state) (asks : AsksFor env keySpec)
    (returned : (perform env state (.setKey now parameterBuffer)).1 = true) :
    (perform env { state with persistenceKdsKeySpec := some keySpec }
      (.setKey now parameterBuffer)).1 = true := by
  obtain ⟨kdsConfig, response, records, passes⟩ := records_of_returns returned
  obtain ⟨known, key, isKnown, passed⟩ := passes
  have same : known = keySpec := (sound known isKnown).unique asks
  subst same
  exact returns_of_passes ⟨records.first, records.configured, records.parsed⟩
    ⟨known, key, rfl, passed⟩

/-- A call that records no response that fails does no harm by throwing. -/
theorem harmless_of_passesIfRecorded {call : Call} (sound : SpecSound state)
    (condition : PassesIfRecorded state call) : Harmless state call := by
  intro after threw
  have failed : (perform env state call).1 = false := by rw [threw]
  have left_behind : (perform env state call).2 = after := by rw [threw]
  clear threw
  cases call with
  | getSpec =>
      rcases getKdsPersistenceKeySpec_cases state with same | ⟨keySpec, asks, same⟩
      · have unchanged : after = state := left_behind.symm.trans same
        subst unchanged
        exact ⟨rfl, rfl, fun _ _ returned => returned⟩
      · have asked := left_behind.symm.trans same
        subst asked
        refine ⟨rfl, rfl, ?_⟩
        intro now parameterBuffer returned
        exact returns_of_asked sound asks returned
  | start =>
      rcases initialise_cases state with same | ⟨-, same⟩
      · have unchanged : after = state := left_behind.symm.trans same
        subst unchanged
        exact ⟨rfl, rfl, fun _ _ returned => returned⟩
      · simp only [perform, same] at failed
        cases failed
  | setKey now parameterBuffer =>
      by_cases recorded : ∃ kdsConfig response, Records state parameterBuffer kdsConfig response
      · obtain ⟨kdsConfig, response, records⟩ := recorded
        have passes := condition kdsConfig response records
        rw [returns_of_passes records passes] at failed
        cases failed
      · obtain ⟨e, same⟩ := @setKdsPersistenceKey_refused env state now _ recorded
        have unchanged : after = state := by
          rw [← left_behind]
          simp only [perform, same]
        subst unchanged
        exact ⟨rfl, rfl, fun _ _ returned => returned⟩

/-! ## All runs -/

theorem step_isSome (state : State env) (call : Call) : (step env state call).isSome := rfl

theorem sound_step {call : Call} (sound : SpecSound state)
    (stepped : step env state call = some after) : SpecSound after := by
  cases stepped
  exact sound.perform call

theorem matches_step {call : Call} (sound : SpecSound state) (kept : Matches state)
    (stepped : step env state call = some after) :
    PassesIfRecorded state call ↔ Matches after := by
  cases stepped
  exact passesIfRecorded_iff sound kept call

/-- In every run the users are shown the KDS that the key has been taken from, and no call does harm
by throwing, exactly if every response that the enclave records passes all the checks. -/
theorem kdsEii_matches_key_iff (env : Environment) (calls : List Call) :
    (Meets (step env) Harmless (State.initial env) calls ∧
        Always (step env) Matches (State.initial env) calls) ↔
      Meets (step env) PassesIfRecorded (State.initial env) calls := by
  obtain ⟨final, ran⟩ := exists_run_of_total step_isSome (State.initial env) calls
  have permitted : Meets (step env) (fun _ _ => True) (State.initial env) calls :=
    .of_forall fun _ _ _ => trivial
  have matching : Meets (step env) PassesIfRecorded (State.initial env) calls ↔
      Always (step env) Matches (State.initial env) calls :=
    meets_iff_always (fun sound _ stepped => sound_step sound stepped)
      (fun sound _ kept stepped => matches_step sound kept stepped) specSound_initial
      matches_initial permitted ran
  constructor
  · rintro ⟨-, always⟩
    exact matching.mpr always
  · intro condition
    refine ⟨?_, matching.mp condition⟩
    exact condition.imp (fun sound _ stepped => sound_step sound stepped)
      harmless_of_passesIfRecorded specSound_initial

/-! ### A response without an envelope -/

namespace MissingEnvelope

open Conclave.Host.KdsCache (SecondMail.host SecondMail.encrypted SecondMail.response)

def environment : Environment where
  toKdsEnvironment := SecondMail.host.toKdsEnvironment
  persistenceKeySpec := some ⟨.DEVELOPMENT, ⟨jstring "SEC:INSECURE", true, false⟩⟩
  reportBody := Simulation.reportBody
  releaseMode := false
  localSecretKey := []

/-- The mail is from the KDS but does not say which key it is about. -/
def response : Bytes :=
  KDSPrivateKeyResponse.put { SecondMail.response with
    encryptedPrivateKey := SecondMail.encrypted 9 none none (List.replicate 32 7) }

def calls : List Call := [.getSpec, .setKey .EPOCH response]

def fields (state : State environment) : Bool × Bool × Bool :=
  (state.persistenceKdsKeySpec.isSome, state.kdsEiiForPersistence.isSome,
    state.aesPersistenceKey.isSome)

end MissingEnvelope

open MissingEnvelope in
/-- The KDS is shown although the enclave has no key from it. -/
theorem missingEnvelope_recorded :
    ¬∀ (env : Environment) (calls : List Call),
      Meets (step env) Harmless (State.initial env) calls ∧
        Always (step env) Matches (State.initial env) calls := by
  intro holds
  have observed : (run (step environment) (State.initial environment) calls).map fields =
      some (true, true, false) := by decide +kernel
  obtain ⟨final, ran, left_behind⟩ := Option.map_eq_some_iff.mp observed
  have same : Matches final := (holds environment calls).2 calls [] final (by simp) ran
  obtain ⟨info, recorded⟩ := Option.isSome_iff_exists.mp
    (congrArg (fun seen => seen.2.1) left_behind)
  have taken := (same info).mp recorded
  have missing : final.aesPersistenceKey = none := by
    have := congrArg (fun seen => seen.2.2) left_behind
    simpa [fields] using this
  rw [missing] at taken
  exact not_takenFrom_none info taken

end Conclave.Enclave.KdsPersistenceKey
