import ConclaveFormal.Enclave.KdsPrivateKey
import ConclaveFormal.Lib.AssocMap
import ConclaveFormal.Lib.Transition
import ConclaveFormal.Mail.PostOffice

/-!
# The two caches of KDS keys

The host remembers for which key specifications the enclave has the private key, and leaves out the
response of the KDS for them.  The enclave keeps the keys themselves.  The deliveries of all threads
interleave at each access to one of the two, and a delivery may be nested in the user's code of
another.
-/

set_option autoImplicit false

namespace Conclave.Host.KdsCache

open Conclave.Lib Conclave.Mail Conclave.Common Conclave.Enclave

/-- `kdsConfigured` is the host's own configuration. -/
structure KdsHost extends KdsEnvironment where
  kdsConfigured : Bool

inductive DeliveryException where
  | keyDerivation (e : MailKeyDerivation.Exception)
  | kdsNotConfigured
  | kdsRequest
  | message
  | parameterBuffer (e : BufferError)
  | enclaveKeyDerivation (e : MailKeyDerivation.Exception)
  | kdsKey (e : KdsKeyException)
  | decryption (e : StreamException)
  | userCode
  deriving DecidableEq

variable (env : KdsHost)

/-- Up to `sending`, and from `returning` on, the delivery is in the host. -/
inductive Phase where
  | deserialising
  | checkingSeen (keySpec : KDSKeySpec)
  | requesting (keySpec : KDSKeySpec)
  | sending
  | handling (message : Bytes)
  | lookingUp (mailStream : MailDecryptingStream env.N) (keySpec : KDSKeySpec)
      (response : Option (KdsPrivateKeyResponse env.toKdsEnvironment))
  | creating (mailStream : MailDecryptingStream env.N) (keySpec : KDSKeySpec)
      (response : Option (KdsPrivateKeyResponse env.toKdsEnvironment))
  | caching (mailStream : MailDecryptingStream env.N) (keySpec : KDSKeySpec)
      (kdsPrivateKey : env.N.PrivateKey)
  | decrypting (mailStream : MailDecryptingStream env.N) (privateKey : env.N.PrivateKey)
      (isKdsKey : Bool)
  | receiving
  | returning
  | marking

/-- `privateKeyResponse` is there once it is settled whether one is needed. -/
structure Delivery where
  mailBytes : Bytes
  routingHint : Option JString
  kdsKeySpec : Option KDSKeySpec
  privateKeyResponse : Option (Option KDSPrivateKeyResponse)
  phase : Phase env

/-- What a step of a delivery comes to. -/
inductive Outcome where
  | goesOn (delivery : Delivery env)
  | caches (keySpec : KDSKeySpec) (kdsPrivateKey : env.N.PrivateKey) (delivery : Delivery env)
  | marks (keySpec : KDSKeySpec)
  | returns
  | throws (e : DeliveryException)

/-- `failures` is for the proofs only. -/
structure State (Thread : Type) where
  seenKdsKeySpecs : List KDSKeySpec
  kdsPrivateKeyCache : AssocMap KDSKeySpec env.N.PrivateKey
  calls : Thread → List (Delivery env)
  failures : List (Thread × DeliveryException)

inductive Action where
  | deliverMail (mailBytes : Bytes) (routingHint : Option JString)
  /-- The KDS answers, or the request fails. -/
  | answer (response : Option KDSPrivateKeyResponse)
  | advance (now : Instant)
  /-- The user's code, in the enclave or in the callback for the commands, returns or throws. -/
  | finish (returned : Bool)

variable {env}

/-! ## One delivery -/

namespace Delivery

def new (mailBytes : Bytes) (routingHint : Option JString) : Delivery env where
  mailBytes := mailBytes
  routingHint := routingHint
  kdsKeySpec := none
  privateKeyResponse := none
  phase := .deserialising

def setPhase (delivery : Delivery env) (phase : Phase env) : Delivery env :=
  { delivery with phase }

def send (delivery : Delivery env) (response : Option KDSPrivateKeyResponse) : Delivery env :=
  { delivery with privateKeyResponse := some response, phase := .sending }

/-- `MailKeyDerivation.deserialiseFromMailBytes`. -/
def deserialise (delivery : Delivery env) : Outcome env :=
  match MailKeyDerivation.deserialiseFromMailBytes env.P.digit env.N delivery.mailBytes with
  | .error e => .throws (.keyDerivation e)
  | .ok .randomSession => .goesOn (delivery.send none)
  | .ok (.kdsKeySpec keySpec) =>
      .goesOn { delivery with kdsKeySpec := some keySpec, phase := .checkingSeen keySpec }

def request (delivery : Delivery env) (response : Option KDSPrivateKeyResponse) : Outcome env :=
  if env.kdsConfigured then
    match response with
    | none => .throws .kdsRequest
    | some response => .goesOn (delivery.send (some response))
  else .throws .kdsNotConfigured

def sendToEnclave (delivery : Delivery env) : Outcome env :=
  match deliverMailMessage delivery.routingHint (delivery.privateKeyResponse.getD none)
      delivery.mailBytes with
  | none => .throws .message
  | some message => .goesOn (delivery.setPhase (.handling message))

/-- `onMail` up to the key. -/
def onMail (delivery : Delivery env) (message : Bytes) : Outcome env :=
  match readMailMessage env.toKdsEnvironment message with
  | .error e => .throws (.parameterBuffer e)
  | .ok (read, _) =>
      match MailKeyDerivation.deserialiseFromMailStream env.P.digit
          (MailDecryptingStream.new (N := env.N) read.mailBytes none) with
      | (.error e, _) => .throws (.enclaveKeyDerivation e)
      | (.ok .randomSession, mailStream) =>
          .goesOn (delivery.setPhase (.decrypting mailStream env.encryptionPrivateKey false))
      | (.ok (.kdsKeySpec keySpec), mailStream) =>
          .goesOn (delivery.setPhase (.lookingUp mailStream keySpec read.kdsPrivateKeyResponse))

def decryptMail (delivery : Delivery env) (mailStream : MailDecryptingStream env.N)
    (privateKey : env.N.PrivateKey) (isKdsKey : Bool) : Outcome env :=
  match (MailDecryptingStream.decryptMail privateKey isKdsKey mailStream).1 with
  | .error e => .throws (.decryption e)
  | .ok _ => .goesOn (delivery.setPhase .receiving)

/-- The end of `deliverMail`. -/
def mark (delivery : Delivery env) : Outcome env :=
  match delivery.privateKeyResponse, delivery.kdsKeySpec with
  | some (some _), some keySpec => .marks keySpec
  | _, _ => .returns

variable (seenKdsKeySpecs : List KDSKeySpec)
  (kdsPrivateKeyCache : AssocMap KDSKeySpec env.N.PrivateKey)

/-- How a delivery goes on that waits for nobody. -/
def advance (now : Instant) (delivery : Delivery env) : Option (Outcome env) :=
  match delivery.phase with
  | .deserialising => some delivery.deserialise
  | .checkingSeen keySpec =>
      if keySpec ∈ seenKdsKeySpecs then some (.goesOn (delivery.send none))
      else some (.goesOn (delivery.setPhase (.requesting keySpec)))
  | .sending => some delivery.sendToEnclave
  | .handling message => some (delivery.onMail message)
  | .lookingUp mailStream keySpec response =>
      match kdsPrivateKeyCache.lookup keySpec with
      | some kdsPrivateKey =>
          some (.goesOn (delivery.setPhase (.decrypting mailStream kdsPrivateKey true)))
      | none => some (.goesOn (delivery.setPhase (.creating mailStream keySpec response)))
  | .creating mailStream keySpec response =>
      match newKdsPrivateKey env.toKdsEnvironment now keySpec response with
      | .error e => some (.throws (.kdsKey e))
      | .ok kdsPrivateKey =>
          some (.goesOn (delivery.setPhase (.caching mailStream keySpec kdsPrivateKey)))
  | .caching mailStream keySpec kdsPrivateKey =>
      some (.caches keySpec kdsPrivateKey
        (delivery.setPhase (.decrypting mailStream kdsPrivateKey true)))
  | .decrypting mailStream privateKey isKdsKey =>
      some (delivery.decryptMail mailStream privateKey isKdsKey)
  | .marking => some delivery.mark
  | .requesting _ | .receiving | .returning => none

/-- The user's code is over. -/
def finish (returned : Bool) (delivery : Delivery env) : Option (Outcome env) :=
  match delivery.phase with
  | .receiving =>
      if returned then some (.goesOn (delivery.setPhase .returning)) else some (.throws .userCode)
  | .returning =>
      if returned then some (.goesOn (delivery.setPhase .marking)) else some (.throws .userCode)
  | _ => none

def answer (response : Option KDSPrivateKeyResponse) (delivery : Delivery env) :
    Option (Outcome env) :=
  match delivery.phase with
  | .requesting _ => some (delivery.request response)
  | _ => none

def step (delivery : Delivery env) : Action → Option (Outcome env)
  | .deliverMail _ _ => none
  | .answer response => delivery.answer response
  | .advance now => delivery.advance seenKdsKeySpecs kdsPrivateKeyCache now
  | .finish returned => delivery.finish returned

/-- User code of the delivery is running, which may deliver another mail. -/
def inUserCode (delivery : Delivery env) : Bool :=
  match delivery.phase with
  | .receiving | .returning => true
  | _ => false

end Delivery

/-! ## All threads -/

variable {Thread : Type} [DecidableEq Thread]

namespace State

variable (env Thread) in
def initial : State env Thread where
  seenKdsKeySpecs := []
  kdsPrivateKeyCache := ∅
  calls := fun _ => []
  failures := []

def setStack (state : State env Thread) (thread : Thread) (stack : List (Delivery env)) :
    State env Thread :=
  { state with calls := Function.update state.calls thread stack }

@[simp] theorem calls_setStack (state : State env Thread) (thread : Thread)
    (stack : List (Delivery env)) :
    (state.setStack thread stack).calls = Function.update state.calls thread stack := rfl

def insertKey (state : State env Thread) (keySpec : KDSKeySpec)
    (kdsPrivateKey : env.N.PrivateKey) : State env Thread :=
  { state with kdsPrivateKeyCache := state.kdsPrivateKeyCache.insert keySpec kdsPrivateKey }

/-- `rest` is the stack of the thread below the delivery. -/
def settle (state : State env Thread) (thread : Thread) (rest : List (Delivery env)) :
    Outcome env → State env Thread
  | .goesOn delivery => state.setStack thread (delivery :: rest)
  | .caches keySpec kdsPrivateKey delivery =>
      (state.insertKey keySpec kdsPrivateKey).setStack thread (delivery :: rest)
  | .marks keySpec =>
      { state.setStack thread rest with
        seenKdsKeySpecs := state.seenKdsKeySpecs.insert keySpec }
  | .returns => state.setStack thread rest
  | .throws e =>
      { state.setStack thread rest with failures := state.failures ++ [(thread, e)] }

def canDeliver (state : State env Thread) (thread : Thread) : Bool :=
  match state.calls thread with
  | [] => true
  | delivery :: _ => delivery.inUserCode

/-- The innermost delivery of the thread goes on. -/
def goOn (state : State env Thread) (thread : Thread) (action : Action) :
    Option (State env Thread) :=
  match state.calls thread with
  | [] => none
  | delivery :: rest =>
      (delivery.step state.seenKdsKeySpecs state.kdsPrivateKeyCache action).map
        (state.settle thread rest)

end State

def step (state : State env Thread) : Thread × Action → Option (State env Thread)
  | (thread, .deliverMail mailBytes routingHint) =>
      if state.canDeliver thread then
        some (state.setStack thread (.new mailBytes routingHint :: state.calls thread))
      else none
  | (thread, action) => state.goOn thread action

/-! ## The invariant -/

/-- The host has left out the response for the key specification of the mail. -/
def Delivery.Omits (delivery : Delivery env) (keySpec : KDSKeySpec) : Prop :=
  delivery.kdsKeySpec = some keySpec ∧ delivery.privateKeyResponse = some none

def State.Cached (state : State env Thread) (keySpec : KDSKeySpec) : Prop :=
  (state.kdsPrivateKeyCache.lookup keySpec).isSome = true

def derivationOf : Option KDSKeySpec → MailKeyDerivation
  | none => .randomSession
  | some keySpec => .kdsKeySpec keySpec

/-- What both sides read from the header of the mail. -/
def Delivery.Derived (delivery : Delivery env) : Prop :=
  MailKeyDerivation.deserialiseFromMailBytes env.P.digit env.N delivery.mailBytes =
    .ok (derivationOf delivery.kdsKeySpec)

/-- What is known of a delivery in its phase, where `cached` tells which keys the enclave has. -/
def Delivery.InPhase (cached : KDSKeySpec → Prop) (delivery : Delivery env) : Prop :=
  match delivery.phase with
  | .deserialising => delivery.privateKeyResponse = none ∧ delivery.kdsKeySpec = none
  | .checkingSeen keySpec | .requesting keySpec =>
      delivery.Derived ∧ delivery.kdsKeySpec = some keySpec ∧ delivery.privateKeyResponse = none
  | .sending => delivery.Derived ∧ delivery.privateKeyResponse.isSome
  | .handling message =>
      delivery.Derived ∧ ∃ response, delivery.privateKeyResponse = some response ∧
        deliverMailMessage delivery.routingHint response delivery.mailBytes = some message
  | .lookingUp _ keySpec response =>
      delivery.kdsKeySpec = some keySpec ∧ (response = none → cached keySpec)
  | .creating _ keySpec response => delivery.kdsKeySpec = some keySpec ∧ response.isSome
  | .caching _ keySpec _ => delivery.kdsKeySpec = some keySpec
  | .decrypting _ _ _ | .receiving | .returning | .marking =>
      ∀ keySpec, delivery.kdsKeySpec = some keySpec → cached keySpec

structure Delivery.Ok (cached : KDSKeySpec → Prop) (delivery : Delivery env) : Prop where
  omitted : ∀ keySpec, delivery.Omits keySpec → cached keySpec
  inPhase : delivery.InPhase cached

def Outcome.Ok (cached : KDSKeySpec → Prop) : Outcome env → Prop
  | .goesOn delivery => delivery.Ok cached
  | .caches keySpec _ delivery => delivery.Ok fun other => other = keySpec ∨ cached other
  | .marks keySpec => cached keySpec
  | .returns => True
  | .throws e => e ≠ .kdsKey .responseNotProvided

structure Sound (state : State env Thread) : Prop where
  seen : ∀ keySpec ∈ state.seenKdsKeySpecs, state.Cached keySpec
  deliveries : ∀ thread, ∀ delivery ∈ state.calls thread, delivery.Ok state.Cached
  failures : ∀ failure ∈ state.failures, failure.2 ≠ .kdsKey .responseNotProvided

omit [DecidableEq Thread] in
theorem sound_initial : Sound (State.initial env Thread) where
  seen _ member := absurd member List.not_mem_nil
  deliveries _ _ member := absurd member List.not_mem_nil
  failures _ member := absurd member List.not_mem_nil

/-! ## Steps of a delivery -/

section Steps

variable {cached : KDSKeySpec → Prop} {delivery : Delivery env} {outcome : Outcome env}

theorem Delivery.Ok.mono {more : KDSKeySpec → Prop} (ok : delivery.Ok cached)
    (grows : ∀ keySpec, cached keySpec → more keySpec) : delivery.Ok more := by
  obtain ⟨omitted, inPhase⟩ := ok
  refine ⟨fun keySpec omits => grows keySpec (omitted keySpec omits), ?_⟩
  obtain ⟨mailBytes, routingHint, kdsKeySpec, privateKeyResponse, phase⟩ := delivery
  cases phase with
  | lookingUp mailStream keySpec response =>
      exact ⟨inPhase.1, fun missing => grows keySpec (inPhase.2 missing)⟩
  | decrypting | receiving | returning | marking =>
      exact fun keySpec same => grows keySpec (inPhase keySpec same)
  | _ => exact inPhase

theorem Delivery.ok_new (mailBytes : Bytes) (routingHint : Option JString) :
    (Delivery.new mailBytes routingHint : Delivery env).Ok cached where
  omitted keySpec omits := by
    obtain ⟨same, -⟩ := omits
    cases same
  inPhase := ⟨rfl, rfl⟩

/-- With a response there is nothing to be cached yet. -/
theorem Delivery.ok_send {response : Option KDSPrivateKeyResponse} (derived : delivery.Derived)
    (omitted : response = none → ∀ keySpec, delivery.kdsKeySpec = some keySpec → cached keySpec) :
    (delivery.send response).Ok cached where
  omitted keySpec omits := omitted (Option.some.inj omits.2) keySpec omits.1
  inPhase := ⟨derived, rfl⟩

theorem Delivery.Ok.setPhase {phase : Phase env} (ok : delivery.Ok cached)
    (inPhase : (delivery.setPhase phase).InPhase cached) : (delivery.setPhase phase).Ok cached where
  omitted := ok.omitted
  inPhase := inPhase

theorem Delivery.deserialise_ok (undecided : delivery.privateKeyResponse = none)
    (unknown : delivery.kdsKeySpec = none) : delivery.deserialise.Ok cached := by
  cases derived : MailKeyDerivation.deserialiseFromMailBytes env.P.digit env.N
      delivery.mailBytes with
  | error e =>
      simp only [Delivery.deserialise, derived, Outcome.Ok]
      simp
  | ok derivation =>
      cases derivation with
      | randomSession =>
          simp only [Delivery.deserialise, derived, Outcome.Ok]
          rw [← derivationOf, ← unknown] at derived
          refine Delivery.ok_send derived fun _ keySpec same => ?_
          rw [unknown] at same
          cases same
      | kdsKeySpec keySpec =>
          simp only [Delivery.deserialise, derived, Outcome.Ok]
          refine ⟨?_, derived, rfl, undecided⟩
          rintro other ⟨-, omitted⟩
          rw [undecided] at omitted
          cases omitted

theorem Delivery.request_ok (response : Option KDSPrivateKeyResponse)
    (derived : delivery.Derived) : (delivery.request response).Ok cached := by
  by_cases configured : env.kdsConfigured = true
  · cases response with
    | none =>
        simp only [Delivery.request, configured, ↓reduceIte, Outcome.Ok]
        simp
    | some response =>
        simp only [Delivery.request, configured, ↓reduceIte, Outcome.Ok]
        refine Delivery.ok_send derived fun absent => ?_
        cases absent
  · simp only [Delivery.request, configured, Bool.false_eq_true, ↓reduceIte, Outcome.Ok]
    simp

theorem Delivery.sendToEnclave_ok (ok : delivery.Ok cached) (derived : delivery.Derived)
    (decided : delivery.privateKeyResponse.isSome) : delivery.sendToEnclave.Ok cached := by
  obtain ⟨response, same⟩ := Option.isSome_iff_exists.mp decided
  cases written : deliverMailMessage delivery.routingHint (delivery.privateKeyResponse.getD none)
      delivery.mailBytes with
  | none =>
      simp only [Delivery.sendToEnclave, written, Outcome.Ok]
      simp
  | some message =>
      simp only [Delivery.sendToEnclave, written, Outcome.Ok]
      rw [same, Option.getD_some] at written
      exact ok.setPhase ⟨derived, response, same, written⟩

/-- Both sides read the same derivation; where the host has left out the response, the enclave has
the key. -/
theorem Delivery.onMail_ok {message : Bytes} {response : Option KDSPrivateKeyResponse}
    (ok : delivery.Ok cached) (derived : delivery.Derived)
    (decided : delivery.privateKeyResponse = some response)
    (written : deliverMailMessage delivery.routingHint response delivery.mailBytes =
      some message) : (delivery.onMail message).Ok cached := by
  cases ran : readMailMessage env.toKdsEnvironment message with
  | error e =>
      simp only [Delivery.onMail, ran, Outcome.Ok]
      simp
  | ok result =>
      obtain ⟨read, rest⟩ := result
      obtain ⟨sameMail, sameResponse⟩ := readMailMessage_deliverMailMessage written ran
      have enclaves := derived
      rw [Delivery.Derived, MailKeyDerivation.deserialiseFromMailBytes, ← sameMail] at enclaves
      cases parsed : MailKeyDerivation.deserialiseFromMailStream env.P.digit
          (MailDecryptingStream.new (N := env.N) read.mailBytes none) with
      | mk result mailStream =>
          rw [parsed] at enclaves
          subst enclaves
          cases known : delivery.kdsKeySpec with
          | none =>
              rw [known] at parsed
              simp only [Delivery.onMail, ran, parsed, derivationOf, Outcome.Ok]
              refine ok.setPhase fun keySpec same => ?_
              rw [Delivery.setPhase, known] at same
              cases same
          | some keySpec =>
              rw [known] at parsed
              simp only [Delivery.onMail, ran, parsed, derivationOf, Outcome.Ok]
              refine ok.setPhase ⟨known, fun missing => ?_⟩
              refine ok.omitted keySpec ⟨known, ?_⟩
              rw [missing] at sameResponse
              rw [decided, Option.isNone_iff_eq_none.mp (Option.isSome_eq_false_iff.mp
                sameResponse.symm)]

theorem Delivery.decryptMail_ok {mailStream : MailDecryptingStream env.N}
    {privateKey : env.N.PrivateKey} {isKdsKey : Bool} (ok : delivery.Ok cached)
    (has : ∀ keySpec, delivery.kdsKeySpec = some keySpec → cached keySpec) :
    (delivery.decryptMail mailStream privateKey isKdsKey).Ok cached := by
  cases decrypted : (MailDecryptingStream.decryptMail privateKey isKdsKey mailStream).1 with
  | error e =>
      simp only [Delivery.decryptMail, decrypted, Outcome.Ok]
      simp
  | ok mail =>
      simp only [Delivery.decryptMail, decrypted, Outcome.Ok]
      exact ok.setPhase has

theorem Delivery.mark_ok
    (has : ∀ keySpec, delivery.kdsKeySpec = some keySpec → cached keySpec) :
    delivery.mark.Ok cached := by
  obtain ⟨mailBytes, routingHint, kdsKeySpec, privateKeyResponse, phase⟩ := delivery
  rcases privateKeyResponse with _ | _ | response
  · trivial
  · trivial
  · cases kdsKeySpec with
    | none => trivial
    | some keySpec => exact has keySpec rfl

section Key

variable {seenKdsKeySpecs : List KDSKeySpec}
  {kdsPrivateKeyCache : AssocMap KDSKeySpec env.N.PrivateKey} {now : Instant}
  {mailStream : MailDecryptingStream env.N} {keySpec : KDSKeySpec}

theorem Delivery.lookingUp_ok {response : Option (KdsPrivateKeyResponse env.toKdsEnvironment)}
    (known : ∀ keySpec, cached keySpec ↔ (kdsPrivateKeyCache.lookup keySpec).isSome = true)
    (ok : delivery.Ok cached) (phase : delivery.phase = .lookingUp mailStream keySpec response)
    (same : delivery.kdsKeySpec = some keySpec) (has : response = none → cached keySpec)
    (advanced : delivery.advance seenKdsKeySpecs kdsPrivateKeyCache now = some outcome) :
    outcome.Ok cached := by
  simp only [Delivery.advance, phase] at advanced
  cases found : kdsPrivateKeyCache.lookup keySpec with
  | some kdsPrivateKey =>
      simp only [found] at advanced
      cases advanced
      refine ok.setPhase fun other sameOther => ?_
      rw [Delivery.setPhase, same] at sameOther
      cases sameOther
      rw [known, found]
      rfl
  | none =>
      simp only [found] at advanced
      cases advanced
      refine ok.setPhase ⟨same, ?_⟩
      -- The key would be there if the host had sent no response.
      cases response with
      | none =>
          have present := (known keySpec).mp (has rfl)
          rw [found] at present
          cases present
      | some response => rfl

theorem Delivery.creating_ok {response : KdsPrivateKeyResponse env.toKdsEnvironment}
    (ok : delivery.Ok cached)
    (phase : delivery.phase = .creating mailStream keySpec (some response))
    (same : delivery.kdsKeySpec = some keySpec)
    (advanced : delivery.advance seenKdsKeySpecs kdsPrivateKeyCache now = some outcome) :
    outcome.Ok cached := by
  simp only [Delivery.advance, phase] at advanced
  cases created : newKdsPrivateKey env.toKdsEnvironment now keySpec (some response) with
  | error e =>
      simp only [created] at advanced
      cases advanced
      rintro missing
      cases missing
      exact newKdsPrivateKey_ne_responseNotProvided response created
  | ok kdsPrivateKey =>
      simp only [created] at advanced
      cases advanced
      exact ok.setPhase same

end Key

theorem Delivery.advance_ok {seenKdsKeySpecs : List KDSKeySpec}
    {kdsPrivateKeyCache : AssocMap KDSKeySpec env.N.PrivateKey} {now : Instant}
    (seen : ∀ keySpec ∈ seenKdsKeySpecs, cached keySpec)
    (known : ∀ keySpec, cached keySpec ↔ (kdsPrivateKeyCache.lookup keySpec).isSome = true)
    (ok : delivery.Ok cached)
    (advanced : delivery.advance seenKdsKeySpecs kdsPrivateKeyCache now = some outcome) :
    outcome.Ok cached := by
  have inPhase := ok.inPhase
  cases phase : delivery.phase with
  | deserialising =>
      simp only [Delivery.InPhase, phase] at inPhase
      simp only [Delivery.advance, phase] at advanced
      cases advanced
      exact Delivery.deserialise_ok inPhase.1 inPhase.2
  | checkingSeen keySpec =>
      simp only [Delivery.InPhase, phase] at inPhase
      obtain ⟨derived, same, undecided⟩ := inPhase
      simp only [Delivery.advance, phase] at advanced
      split at advanced
      · rename_i member
        cases advanced
        refine Delivery.ok_send derived fun _ other sameOther => ?_
        rw [same] at sameOther
        cases sameOther
        exact seen keySpec member
      · cases advanced
        exact ok.setPhase ⟨derived, same, undecided⟩
  | sending =>
      simp only [Delivery.InPhase, phase] at inPhase
      simp only [Delivery.advance, phase] at advanced
      cases advanced
      exact Delivery.sendToEnclave_ok ok inPhase.1 inPhase.2
  | handling message =>
      simp only [Delivery.InPhase, phase] at inPhase
      obtain ⟨derived, response, decided, written⟩ := inPhase
      simp only [Delivery.advance, phase] at advanced
      cases advanced
      exact Delivery.onMail_ok ok derived decided written
  | lookingUp mailStream keySpec response =>
      simp only [Delivery.InPhase, phase] at inPhase
      exact Delivery.lookingUp_ok known ok phase inPhase.1 inPhase.2 advanced
  | creating mailStream keySpec response =>
      simp only [Delivery.InPhase, phase] at inPhase
      obtain ⟨response, rfl⟩ := Option.isSome_iff_exists.mp inPhase.2
      exact Delivery.creating_ok ok phase inPhase.1 advanced
  | caching mailStream keySpec kdsPrivateKey =>
      simp only [Delivery.InPhase, phase] at inPhase
      simp only [Delivery.advance, phase] at advanced
      cases advanced
      have more : delivery.Ok fun other => other = keySpec ∨ cached other :=
        ok.mono fun other has => Or.inr has
      refine more.setPhase fun other same => ?_
      rw [Delivery.setPhase, inPhase] at same
      cases same
      exact Or.inl rfl
  | decrypting mailStream privateKey isKdsKey =>
      simp only [Delivery.InPhase, phase] at inPhase
      simp only [Delivery.advance, phase] at advanced
      cases advanced
      exact Delivery.decryptMail_ok ok inPhase
  | marking =>
      simp only [Delivery.InPhase, phase] at inPhase
      simp only [Delivery.advance, phase] at advanced
      cases advanced
      exact Delivery.mark_ok inPhase
  | requesting | receiving | returning =>
      simp only [Delivery.advance, phase] at advanced
      cases advanced

theorem Delivery.finish_ok {returned : Bool} (ok : delivery.Ok cached)
    (finished : delivery.finish returned = some outcome) : outcome.Ok cached := by
  have inPhase := ok.inPhase
  cases phase : delivery.phase with
  | receiving | returning =>
      simp only [Delivery.InPhase, phase] at inPhase
      simp only [Delivery.finish, phase] at finished
      cases returned with
      | false =>
          cases finished
          simp [Outcome.Ok]
      | true =>
          cases finished
          exact ok.setPhase inPhase
  | _ =>
      simp only [Delivery.finish, phase] at finished
      cases finished

theorem Delivery.answer_ok {response : Option KDSPrivateKeyResponse} (ok : delivery.Ok cached)
    (answered : delivery.answer response = some outcome) : outcome.Ok cached := by
  have inPhase := ok.inPhase
  cases phase : delivery.phase with
  | requesting keySpec =>
      simp only [Delivery.InPhase, phase] at inPhase
      simp only [Delivery.answer, phase] at answered
      cases answered
      exact Delivery.request_ok response inPhase.1
  | _ =>
      simp only [Delivery.answer, phase] at answered
      cases answered

theorem Delivery.step_ok {seenKdsKeySpecs : List KDSKeySpec}
    {kdsPrivateKeyCache : AssocMap KDSKeySpec env.N.PrivateKey} {action : Action}
    (seen : ∀ keySpec ∈ seenKdsKeySpecs, cached keySpec)
    (known : ∀ keySpec, cached keySpec ↔ (kdsPrivateKeyCache.lookup keySpec).isSome = true)
    (ok : delivery.Ok cached)
    (stepped : delivery.step seenKdsKeySpecs kdsPrivateKeyCache action = some outcome) :
    outcome.Ok cached := by
  cases action with
  | deliverMail mailBytes routingHint => cases stepped
  | answer response => exact Delivery.answer_ok ok stepped
  | advance now => exact Delivery.advance_ok seen known ok stepped
  | finish returned => exact Delivery.finish_ok ok stepped

end Steps

/-! ## Steps of a thread -/

variable {state next : State env Thread} {thread : Thread}

theorem Sound.setStack (sound : Sound state) {stack : List (Delivery env)}
    (ok : ∀ delivery ∈ stack, delivery.Ok state.Cached) : Sound (state.setStack thread stack) where
  seen := sound.seen
  deliveries other delivery member := by
    by_cases same : other = thread
    · subst same
      rw [State.calls_setStack, Function.update_self] at member
      exact ok delivery member
    · rw [State.calls_setStack, Function.update_of_ne same] at member
      exact sound.deliveries other delivery member
  failures := sound.failures

omit [DecidableEq Thread] in
theorem State.cached_insertKey {keySpec other : KDSKeySpec} {kdsPrivateKey : env.N.PrivateKey} :
    (state.insertKey keySpec kdsPrivateKey).Cached other ↔
      other = keySpec ∨ state.Cached other := by
  by_cases same : other = keySpec
  · rw [State.Cached, State.insertKey, same, AList.lookup_insert]
    exact iff_of_true rfl (Or.inl rfl)
  · rw [State.Cached, State.insertKey, AList.lookup_insert_ne same]
    constructor
    · exact Or.inr
    · rintro (equal | has)
      · exact absurd equal same
      · exact has

omit [DecidableEq Thread] in
theorem Sound.insertKey (sound : Sound state) (keySpec : KDSKeySpec)
    (kdsPrivateKey : env.N.PrivateKey) : Sound (state.insertKey keySpec kdsPrivateKey) where
  seen other member := State.cached_insertKey.mpr (Or.inr (sound.seen other member))
  deliveries thread delivery member :=
    (sound.deliveries thread delivery member).mono fun _ has =>
      State.cached_insertKey.mpr (Or.inr has)
  failures := sound.failures

theorem Sound.settle (sound : Sound state) {rest : List (Delivery env)} {outcome : Outcome env}
    (below : ∀ delivery ∈ rest, delivery.Ok state.Cached) (ok : outcome.Ok state.Cached) :
    Sound (state.settle thread rest outcome) := by
  cases outcome with
  | goesOn delivery =>
      refine sound.setStack fun other member => ?_
      rcases List.mem_cons.mp member with rfl | older
      · exact ok
      · exact below other older
  | caches keySpec kdsPrivateKey delivery =>
      refine (sound.insertKey keySpec kdsPrivateKey).setStack fun other member => ?_
      rcases List.mem_cons.mp member with rfl | older
      · exact ok.mono fun _ has => State.cached_insertKey.mpr has
      · exact (below other older).mono fun _ has => State.cached_insertKey.mpr (Or.inr has)
  | marks keySpec =>
      have kept : Sound (state.setStack thread rest) := sound.setStack below
      refine ⟨fun other member => ?_, kept.deliveries, kept.failures⟩
      rcases List.mem_insert_iff.mp member with rfl | older
      · exact ok
      · exact sound.seen other older
  | returns => exact sound.setStack below
  | throws e =>
      have kept : Sound (state.setStack thread rest) := sound.setStack below
      refine ⟨kept.seen, kept.deliveries, fun failure member => ?_⟩
      rcases List.mem_append.mp member with older | added
      · exact sound.failures failure older
      · rw [List.mem_singleton.mp added]
        exact ok

theorem Sound.goOn {action : Action} (sound : Sound state)
    (stepped : state.goOn thread action = some next) : Sound next := by
  cases calls : state.calls thread with
  | nil =>
      simp only [State.goOn, calls] at stepped
      cases stepped
  | cons delivery rest =>
      simp only [State.goOn, calls] at stepped
      obtain ⟨outcome, went, rfl⟩ := Option.map_eq_some_iff.mp stepped
      have all : ∀ other ∈ delivery :: rest, other.Ok state.Cached := calls ▸
        sound.deliveries thread
      refine sound.settle (fun other older => all other (List.mem_cons_of_mem _ older)) ?_
      exact Delivery.step_ok sound.seen (fun _ => Iff.rfl) (all delivery List.mem_cons_self) went

theorem Sound.step {input : Thread × Action} (sound : Sound state)
    (stepped : step state input = some next) : Sound next := by
  obtain ⟨thread, action⟩ := input
  cases action with
  | deliverMail mailBytes routingHint =>
      obtain ⟨-, same⟩ := Option.ite_none_right_eq_some.mp stepped
      cases same
      refine sound.setStack fun delivery member => ?_
      rcases List.mem_cons.mp member with rfl | older
      · exact Delivery.ok_new mailBytes routingHint
      · exact sound.deliveries thread delivery older
  | answer response => exact sound.goOn stepped
  | advance now => exact sound.goOn stepped
  | finish returned => exact sound.goOn stepped

/-! ## All runs -/

/-- In every interleaving the enclave has the key of each mail for which the host has left out the
response of the KDS, and no delivery fails because the response is missing. -/
theorem kdsCaches_agree {inputs : List (Thread × Action)} {final : State env Thread}
    (ran : run step (State.initial env Thread) inputs = some final) :
    (∀ thread, ∀ delivery ∈ final.calls thread, ∀ keySpec,
      delivery.Omits keySpec → final.Cached keySpec) ∧
    (∀ keySpec ∈ final.seenKdsKeySpecs, final.Cached keySpec) ∧
    ∀ failure ∈ final.failures, failure.2 ≠ .kdsKey .responseNotProvided := by
  have sound : Sound final := run_invariant Sound.step sound_initial ran
  refine ⟨?_, sound.seen, sound.failures⟩
  intro thread delivery member keySpec omits
  exact (sound.deliveries thread delivery member).omitted keySpec omits

/-! ### A second mail with the same key specification -/

namespace SecondMail

def keySpec : KDSKeySpec := ⟨[0x6b], .DEVELOPMENT, [0x43, 0x3A] ++ List.replicate 64 0x30⟩

def keySpecBytes : Bytes :=
  1 :: (writeIntLengthPrefixBytes (encodeUtf8 keySpec.name) ++ keySpec.masterKeyType.id ::
    writeIntLengthPrefixBytes (encodeUtf8 keySpec.policyConstraint))

/-- An enclave that trusts KDS enclaves in simulation mode. -/
def host : KdsHost where
  N := openNoise
  P := Attestation.Simulation.platform
  publicKey key := ⟨List.replicate 32 key, List.length_replicate⟩
  privateKey encoded := (encoded.val.headD 0, none)
  encryptionPrivateKey := ((2 : UInt8), none)
  kdsEnclaveConstraint := some {
    acceptableCodeHashes := []
    acceptableSigners := [⟨List.replicate 32 0, Or.inl List.length_replicate⟩]
    productID := some 0
    minRevocationLevel := none
    minSecurityLevel := .INSECURE
    maxAttestationAge := none }
  withinAge _ _ _ := true
  kdsConfigured := true

def encrypted (sender : UInt8) (envelope keyDerivation : Option Bytes) (body : Bytes) : Bytes :=
  (encryptMail (N := openNoise) (2 : UInt8) (sender, none) () 1000000
    ⟨0, [0x74], envelope, keyDerivation⟩ 0 body none).toOption.getD []

def mail : Bytes := encrypted 5 none (some keySpecBytes) [1, 2, 3]

/-- The KDS encrypts with the key of its instance info. -/
def response : KDSPrivateKeyResponse where
  kdsAttestationReport := Attestation.magic ++ Attestation.Simulation.info.body
  encryptedPrivateKey := encrypted 9 (some keySpecBytes) none (List.replicate 32 7)

def delivered : List Action :=
  [.deliverMail mail none, .advance .EPOCH, .advance .EPOCH, .answer (some response),
    .advance .EPOCH, .advance .EPOCH, .advance .EPOCH, .advance .EPOCH, .advance .EPOCH,
    .advance .EPOCH, .finish true, .finish true, .advance .EPOCH]

/-- The first mail is delivered whole; the second one, on another thread, is about to be sent. -/
def inputs : List (Bool × Action) :=
  delivered.map (Prod.mk false) ++
    [(true, .deliverMail mail none), (true, .advance .EPOCH), (true, .advance .EPOCH)]

def decisions (state : State host Bool) :
    List (Option KDSKeySpec × Option (Option KDSPrivateKeyResponse)) :=
  (state.calls true).map fun delivery => (delivery.kdsKeySpec, delivery.privateKeyResponse)

end SecondMail

open SecondMail in
theorem kdsCaches_agree_secondMail :
    ∃ final, run step (State.initial host Bool) inputs = some final ∧
      (∃ delivery ∈ final.calls true, delivery.Omits keySpec) ∧ final.Cached keySpec := by
  have observed : (run step (State.initial host Bool) inputs).map decisions =
      some [(some keySpec, some none)] := by decide +kernel
  obtain ⟨final, ran, decided⟩ := Option.map_eq_some_iff.mp observed
  obtain ⟨delivery, rest, calls, same, -⟩ := List.map_eq_cons_iff.mp decided
  have omits : delivery.Omits keySpec := ⟨congrArg Prod.fst same, congrArg Prod.snd same⟩
  have member : delivery ∈ final.calls true := by
    rw [calls]
    exact List.mem_cons_self
  have cached := (kdsCaches_agree ran).1 true delivery member keySpec omits
  exact ⟨final, ran, ⟨delivery, member, omits⟩, cached⟩

end Conclave.Host.KdsCache
