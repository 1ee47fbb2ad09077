import ConclaveFormal.NoiseProtocol.Start

/-!
# Two prepared sides

`prepare` is what an application does before the first message: it creates a
handshake state, gives it the keys it has and starts it.  Two sides that were
given matching keys are then linked, and it is the initiator's turn.
-/

set_option autoImplicit false

namespace Conclave.NoiseProtocol

open Conclave.Lib Attempt Pattern HandshakeState

/-- What an application supplies. -/
structure Party where
  prologue : Option Bytes
  staticKey : Option Bytes
  remoteStatic : Option Bytes
  psk : Option Bytes

def whenGiven (value : Option Bytes) (set : Bytes → Handshaking Unit) : Handshaking Unit :=
  match value with
  | none => pure ()
  | some value => set value

def configure (party : Party) : Handshaking Unit := do
  whenGiven party.prologue setPrologue
  whenGiven party.staticKey setLocalPrivateKey
  whenGiven party.remoteStatic setRemotePublicKey
  whenGiven party.psk setPreSharedKey

def prepare (crypto : Crypto) (protocolName : String) (role : Role) (party : Party) :
    Except NoiseError HandshakeState := do
  let state ← new crypto protocolName role
  match (do configure party; start : Handshaking Unit) state with
  | (.error e, _) => .error e
  | (.ok (), state) => return state

/-! ## Configuring -/

/-- A given static key replaces what the state has for one. -/
def DHState.given (value : Option Bytes) (set : DHState → Bytes → DHState)
    (key : Option DHState) : Option DHState :=
  match value with
  | none => key
  | some value => key.map fun dh => set dh value

def configured (party : Party) (state : HandshakeState) : HandshakeState :=
  { state with
    prologue := party.prologue.or state.prologue
    localKeyPair := DHState.given party.staticKey DHState.setPrivateKey state.localKeyPair
    remotePublicKey := DHState.given party.remoteStatic DHState.setPublicKey state.remotePublicKey
    preSharedKey := party.psk.or state.preSharedKey }

section Configuring

variable {state : HandshakeState} {value : Option Bytes}

theorem whenGiven_prologue (idle : state.action = .noAction) :
    whenGiven value setPrologue state =
      (.ok (), { state with prologue := value.or state.prologue }) := by
  cases value with
  | none => rfl
  | some prologue =>
      rw [whenGiven, setPrologue, get_bind, if_neg (not_not_intro idle)]
      rfl

theorem whenGiven_localPrivateKey (own : value.isSome = true → state.localKeyPair.isSome = true) :
    whenGiven value setLocalPrivateKey state =
      (.ok (), { state with
        localKeyPair := DHState.given value DHState.setPrivateKey state.localKeyPair }) := by
  cases value with
  | none => rfl
  | some key =>
      obtain ⟨keyPair, there⟩ := Option.isSome_iff_exists.mp (own rfl)
      simp only [whenGiven, setLocalPrivateKey, get_bind, there, modify_apply, DHState.given,
        Option.map_some]

theorem whenGiven_remotePublicKey
    (other : value.isSome = true → state.remotePublicKey.isSome = true) :
    whenGiven value setRemotePublicKey state =
      (.ok (), { state with
        remotePublicKey := DHState.given value DHState.setPublicKey state.remotePublicKey }) := by
  cases value with
  | none => rfl
  | some key =>
      obtain ⟨remote, there⟩ := Option.isSome_iff_exists.mp (other rfl)
      simp only [whenGiven, setRemotePublicKey, get_bind, there, modify_apply, DHState.given,
        Option.map_some]

theorem whenGiven_preSharedKey (idle : state.action = .noAction)
    (psk : ∀ key, value = some key → key.length = 32 ∧ state.requires pskRequired = true) :
    whenGiven value setPreSharedKey state =
      (.ok (), { state with preSharedKey := value.or state.preSharedKey }) := by
  cases value with
  | none => rfl
  | some key =>
      obtain ⟨length, needed⟩ := psk key rfl
      rw [requires, bne_iff_ne] at needed
      rw [whenGiven, setPreSharedKey, get_bind, if_neg (not_not_intro length), if_neg needed,
        if_neg (not_not_intro idle)]
      rfl

theorem configure_eq {party : Party} (idle : state.action = .noAction)
    (own : party.staticKey.isSome = true → state.localKeyPair.isSome = true)
    (other : party.remoteStatic.isSome = true → state.remotePublicKey.isSome = true)
    (psk : ∀ key, party.psk = some key → key.length = 32 ∧ state.requires pskRequired = true) :
    configure party state = (.ok (), configured party state) := by
  rw [configure, bind_ok (whenGiven_prologue idle)]
  refine (bind_ok (whenGiven_localPrivateKey ?_)).trans
    ((bind_ok (whenGiven_remotePublicKey ?_)).trans (whenGiven_preSharedKey ?_ ?_))
  · exact own
  · exact other
  · exact idle
  · exact psk

end Configuring

/-! ## Matching keys -/

/-- The public key of a party. -/
def Party.publicKey (suite : Suite) (party : Party) : Option Bytes :=
  party.staticKey.map fun key => (suite.algorithm .static).eval key none

/-- A party has the keys that its side of the pattern asks for before the first message. -/
structure Supplied (suite : Suite) (flags : UInt16) (initiator psk : Bool) (party other : Party) :
    Prop where
  staticKey : party.staticKey.isSome = owns flags initiator .static
  length : ∀ key, party.staticKey = some key → key.length = (suite.algorithm .static).keyLength
  remoteStatic : party.remoteStatic =
    if required flags (!initiator) then other.publicKey suite else none
  preSharedKey : party.psk.isSome = psk
  pskLength : ∀ key, party.psk = some key → key.length = 32

/-- The parties agree on what is not sent. -/
structure Agreed (suite : Suite) (flags : UInt16) (psk : Bool) (first second : Party) : Prop where
  supplied : Supplied suite flags true psk first second
  supplied' : Supplied suite flags false psk second first
  prologue : second.prologue.getD [] = first.prologue.getD []
  preSharedKey : second.psk = first.psk

/-- The key of a slot as its owner has it after the preparation. -/
def ownKey (suite : Suite) (party : Party) : KeySlot → DHState
  | .static =>
      match party.staticKey with
      | none => DHState.new (suite.algorithm .static)
      | some key => (DHState.new (suite.algorithm .static)).setPrivateKey key
  | slot => DHState.new (suite.algorithm slot)

def seenKey (suite : Suite) (party : Party) : KeySlot → DHState
  | .static =>
      match party.remoteStatic with
      | none => DHState.new (suite.algorithm .static)
      | some key => (DHState.new (suite.algorithm .static)).setPublicKey key
  | slot => DHState.new (suite.algorithm slot)

section Prepared

variable {suite : Suite} {pattern : Pattern} {initiator psk : Bool} {symmetric : SymmetricState}
  {state : HandshakeState} {party other : Party}

theorem configured_localKey (fresh : Fresh suite pattern initiator psk symmetric state)
    (slot : KeySlot) :
    (configured party state).localKey slot =
      if owns pattern.flags initiator slot then some (ownKey suite party slot) else none := by
  have key := fresh.localKey slot
  cases slot with
  | static =>
      show DHState.given party.staticKey DHState.setPrivateKey (state.localKey .static) = _
      rw [key, ownKey]
      cases party.staticKey <;> split <;> rfl
  | ephemeral => exact key
  | hybrid => exact key

theorem configured_remoteKey (fresh : Fresh suite pattern initiator psk symmetric state)
    (slot : KeySlot) :
    (configured party state).remoteKey slot =
      if owns pattern.flags (!initiator) slot then some (seenKey suite party slot) else none := by
  have key := fresh.remoteKey slot
  cases slot with
  | static =>
      show DHState.given party.remoteStatic DHState.setPublicKey (state.remoteKey .static) = _
      rw [key, seenKey]
      cases party.remoteStatic <;> split <;> rfl
  | ephemeral => exact key
  | hybrid => exact key

theorem owns_of_required (ready : pattern.ready = true)
    (needed : required pattern.flags initiator = true) :
    owns pattern.flags initiator .static = true := by
  rw [Pattern.ready, Bool.and_eq_true, List.all_eq_true] at ready
  refine ready.1 (initiator, .static) ?_
  cases initiator with
  | true => simp [knownBefore, needed]
  | false => simp [knownBefore, needed]

theorem configured_canStart (fresh : Fresh suite pattern initiator psk symmetric state)
    (supplied : Supplied suite pattern.flags initiator psk party other)
    (supplied' : Supplied suite pattern.flags (!initiator) psk other party)
    (ready : pattern.ready = true) (ordinary : pattern.flags &&& flagRemoteEphemReq = 0) :
    CanStart (configured party state) := by
  have ownStatic : owns pattern.flags initiator .static = true →
      hasPrivateKey (configured party state).localKeyPair = true := fun owned => by
    have key : (configured party state).localKeyPair = _ := configured_localKey fresh .static
    have given := supplied.staticKey
    rw [owned] at given
    obtain ⟨value, given⟩ := Option.isSome_iff_exists.mp given
    rw [key, if_pos owned, ownKey, given]
    rfl
  have ownRequired : required pattern.flags initiator = true →
      hasPrivateKey (configured party state).localKeyPair = true := fun needed =>
    ownStatic (owns_of_required ready needed)
  have otherRequired : required pattern.flags (!initiator) = true →
      hasPublicKey (configured party state).remotePublicKey = true := fun needed => by
    have owned := owns_of_required ready needed
    have key : (configured party state).remotePublicKey = _ := configured_remoteKey fresh .static
    have given := supplied'.staticKey
    rw [owned] at given
    obtain ⟨value, given⟩ := Option.isSome_iff_exists.mp given
    have remote := supplied.remoteStatic
    rw [if_pos needed, Party.publicKey, given] at remote
    rw [key, if_pos owned, seenKey, remote]
    rfl
  have requires := fresh.requirements
  have some_of_private {key : Option DHState} (there : hasPrivateKey key = true) :
      key.isSome = true := by
    cases key with
    | none => cases there
    | some dh => rfl
  have some_of_public {key : Option DHState} (there : hasPublicKey key = true) :
      key.isSome = true := by
    cases key with
    | none => cases there
    | some dh => rfl
  constructor
  · exact fresh.action
  · intro fallback
    have flags : (configured party state).pattern = pattern := fresh.pattern
    rw [flags] at fallback
    exact absurd ordinary fallback
  · intro needed
    have either := requires.localRequired.symm.trans needed
    rcases Bool.or_eq_true_iff.mp either with owned | needed
    · exact ownStatic owned
    · exact ownRequired needed
  · intro needed
    exact otherRequired (requires.remoteRequired.symm.trans needed)
  · intro needed
    have given := supplied.preSharedKey.trans (requires.pskRequired.symm.trans needed)
    show (party.psk.or state.preSharedKey).isSome = true
    rw [Option.isSome_or, given, Bool.true_or]
  · intro needed
    exact some_of_private (ownRequired (requires.localPremsg.symm.trans needed))
  · intro needed
    exact some_of_public (otherRequired (requires.remotePremsg.symm.trans needed))
  · intro needed
    exact absurd (requires.fallbackPremsg.symm.trans needed) Bool.false_ne_true

theorem premessage_own (fresh : Fresh suite pattern initiator psk symmetric state)
    (supplied : Supplied suite pattern.flags initiator psk party other)
    (ready : pattern.ready = true) :
    (configured party state).premessage localPremsg (configured party state).localKeyPair =
      if required pattern.flags initiator then party.publicKey suite else none := by
  have requires : (configured party state).requires localPremsg =
      required pattern.flags initiator := fresh.requirements.localPremsg
  rw [premessage, requires]
  cases needed : required pattern.flags initiator with
  | false => rfl
  | true =>
      have owned := owns_of_required ready needed
      have key : (configured party state).localKeyPair = _ := configured_localKey fresh .static
      have given := supplied.staticKey
      rw [owned] at given
      obtain ⟨value, given⟩ := Option.isSome_iff_exists.mp given
      have short : value.take (suite.algorithm .static).keyLength = value :=
        List.take_of_length_le (supplied.length value given).le
      rw [if_pos rfl, if_pos rfl, key, if_pos owned, ownKey, Party.publicKey, given]
      show some ((suite.algorithm .static).eval
        (value.take (suite.algorithm .static).keyLength) none) = _
      rw [short]
      rfl

theorem premessage_other (fresh : Fresh suite pattern initiator psk symmetric state)
    (supplied : Supplied suite pattern.flags initiator psk party other)
    (supplied' : Supplied suite pattern.flags (!initiator) psk other party)
    (ready : pattern.ready = true) :
    (configured party state).premessage remotePremsg (configured party state).remotePublicKey =
      if required pattern.flags (!initiator) then other.publicKey suite else none := by
  have requires : (configured party state).requires remotePremsg =
      required pattern.flags (!initiator) := fresh.requirements.remotePremsg
  rw [premessage, requires]
  cases needed : required pattern.flags (!initiator) with
  | false => rfl
  | true =>
      have owned := owns_of_required ready needed
      have key : (configured party state).remotePublicKey = _ := configured_remoteKey fresh .static
      have given := supplied'.staticKey
      rw [owned] at given
      obtain ⟨value, given⟩ := Option.isSome_iff_exists.mp given
      have remote := supplied.remoteStatic
      rw [if_pos needed, Party.publicKey, given] at remote
      rw [if_pos rfl, if_pos rfl, key, if_pos owned, seenKey, remote, Party.publicKey, given]
      exact congrArg some (List.take_of_length_le
        ((suite.algorithm .static).eval_length value none).le)

theorem configured_started (fresh : Fresh suite pattern initiator psk symmetric state)
    (supplied : Supplied suite pattern.flags initiator psk party other)
    (supplied' : Supplied suite pattern.flags (!initiator) psk other party)
    (ready : pattern.ready = true) :
    (configured party state).started =
      (((symmetric.mixHash (party.prologue.getD [])).mixOptionalKey party.psk).mixOptional
        (if required pattern.flags true then
          (if initiator then party else other).publicKey suite else none)).mixOptional
        (if required pattern.flags false then
          (if initiator then other else party).publicKey suite else none) := by
  have own := premessage_own fresh supplied ready
  have other_eq := premessage_other fresh supplied supplied' ready
  have reused (ephemeral hybrid : Option DHState) :
      (configured party state).reusedKeys ephemeral hybrid = none := by
    have requires : (configured party state).requires fallbackPremsg = false :=
      fresh.requirements.fallbackPremsg
    rw [reusedKeys, requires]
    rfl
  have role : (configured party state).isInitiator = initiator := fresh.isInitiator
  have prologue : (configured party state).prologue = party.prologue := by
    show party.prologue.or state.prologue = party.prologue
    rw [fresh.prologue, Option.or_none]
  have preSharedKey : (configured party state).preSharedKey = party.psk := by
    show party.psk.or state.preSharedKey = party.psk
    rw [fresh.preSharedKey, Option.or_none]
  have hashed : (configured party state).symmetric = symmetric := fresh.symmetric
  rw [started, premessages, own, other_eq, reused, reused, role, prologue, preSharedKey, hashed]
  cases initiator <;> rfl

/-- A side that has been prepared, up to its symmetric state and its action. -/
structure IsPrepared (suite : Suite) (pattern : Pattern) (initiator : Bool) (party : Party)
    (state : HandshakeState) : Prop where
  isInitiator : state.isInitiator = initiator
  patternIndex : state.patternIndex = 0
  action : state.action = if initiator then .writeMessage else .readMessage
  preSharedKey : state.preSharedKey = party.psk
  prologue : state.prologue = party.prologue
  localKey : ∀ slot, state.localKey slot =
    if owns pattern.flags initiator slot then some (ownKey suite party slot) else none
  remoteKey : ∀ slot, state.remoteKey slot =
    if owns pattern.flags (!initiator) slot then some (seenKey suite party slot) else none
  pattern : state.pattern = pattern

theorem prepare_eq {crypto : Crypto} {protocolName : String} {role : Role}
    (created : new crypto protocolName role = .ok state)
    (fresh : Fresh suite pattern (role == .initiator) psk symmetric state)
    (supplied : Supplied suite pattern.flags (role == .initiator) psk party other)
    (supplied' : Supplied suite pattern.flags (!(role == .initiator)) psk other party)
    (ready : pattern.ready = true) (ordinary : pattern.flags &&& flagRemoteEphemReq = 0) :
    ∃ prepared, prepare crypto protocolName role party = .ok prepared ∧
      IsPrepared suite pattern (role == .initiator) party prepared ∧
      prepared.symmetric = (configured party state).started ∧
      prepared.requirements = state.requirements := by
  have can := configured_canStart fresh supplied supplied' ready ordinary
  have own : party.staticKey.isSome = true → state.localKeyPair.isSome = true := fun given => by
    have key : state.localKeyPair = _ := fresh.localKey .static
    rw [key, if_pos (supplied.staticKey.symm.trans given)]
    rfl
  have other : party.remoteStatic.isSome = true → state.remotePublicKey.isSome = true :=
    fun given => by
      have key : state.remotePublicKey = _ := fresh.remoteKey .static
      rw [supplied.remoteStatic] at given
      split at given
      · rename_i needed
        rw [key, if_pos (owns_of_required ready needed)]
        rfl
      · cases given
  have usesPsk (key : Bytes) (given : party.psk = some key) :
      key.length = 32 ∧ state.requires pskRequired = true := by
    refine ⟨supplied.pskLength key given, ?_⟩
    have used := supplied.preSharedKey
    rw [given] at used
    exact fresh.requirements.pskRequired.trans used.symm
  have ran : (do configure party; start : Handshaking Unit) state = _ :=
    (bind_ok (configure_eq fresh.action own other usesPsk)).trans (start_eq can)
  refine ⟨{ setSymmetric (configured party state).started (configured party state) with
    action := if (configured party state).isInitiator then .writeMessage else .readMessage },
    ?_, ?_, rfl, rfl⟩
  · rw [prepare, created]
    show (match (do configure party; start : Handshaking Unit) state with
      | (.error e, _) => Except.error e
      | (.ok (), state) => return state) = _
    rw [ran]
    rfl
  · have preSharedKey : (configured party state).preSharedKey = party.psk := by
      show party.psk.or state.preSharedKey = party.psk
      rw [fresh.preSharedKey, Option.or_none]
    have prologue : (configured party state).prologue = party.prologue := by
      show party.prologue.or state.prologue = party.prologue
      rw [fresh.prologue, Option.or_none]
    have role : (configured party state).isInitiator = _ := fresh.isInitiator
    refine ⟨role, fresh.patternIndex, ?_, preSharedKey, prologue, fun slot => ?_, fun slot => ?_,
      fresh.pattern⟩
    · show (if (configured party state).isInitiator then _ else _) = _
      rw [role]
    · rw [← configured_localKey fresh slot]
      cases slot <;> rfl
    · rw [← configured_remoteKey fresh slot]
      cases slot <;> rfl

end Prepared

/-! ## The first turn -/

section FirstTurn

variable {suite : Suite} {pattern : Pattern} {psk : Bool} {first second : Party}
  {initiator responder : HandshakeState}

theorem patterns_short : ∀ entry ∈ patterns, entry.2.tokens.length ≤ 12 := by
  decide

/-- Only fallback patterns start with keys other than static ones. -/
theorem patterns_reuse : ∀ entry ∈ patterns, entry.2.flags &&& flagRemoteEphemReq = 0 →
    entry.2.flags &&& flagRemoteHybridReq = 0 := by
  decide

theorem mem_knownBefore {name : String} (found : lookup name = some pattern)
    (ordinary : pattern.flags &&& flagRemoteEphemReq = 0) {initiator : Bool} {slot : KeySlot}
    (known : (initiator, slot) ∈ knownBefore pattern.flags) :
    slot = .static ∧ required pattern.flags initiator = true := by
  have reuse := patterns_reuse _ (lookup_mem found) ordinary
  rw [knownBefore, if_neg (not_not_intro ordinary), if_neg (not_not_intro reuse), List.append_nil,
    List.append_nil, List.mem_append] at known
  rcases known with known | known
  · split at known
    · cases List.mem_singleton.mp known
      exact ⟨rfl, by assumption⟩
    · cases known
  · split at known
    · cases List.mem_singleton.mp known
      exact ⟨rfl, by assumption⟩
    · cases known

theorem ownKey_algorithm (party : Party) (slot : KeySlot) :
    (ownKey suite party slot).algorithm = suite.algorithm slot := by
  cases slot with
  | static =>
      rw [ownKey]
      cases party.staticKey <;> rfl
  | ephemeral => rfl
  | hybrid => rfl

theorem seenKey_algorithm (party : Party) (slot : KeySlot) :
    (seenKey suite party slot).algorithm = suite.algorithm slot := by
  cases slot with
  | static =>
      rw [seenKey]
      cases party.remoteStatic <;> rfl
  | ephemeral => rfl
  | hybrid => rfl

theorem IsPrepared.shows {name : String} {owner peer : HandshakeState} {party other : Party}
    {side : Bool} (prepared : IsPrepared suite pattern side party owner)
    (prepared' : IsPrepared suite pattern (!side) other peer)
    (found : lookup name = some pattern) (ready : pattern.ready = true)
    (ordinary : pattern.flags &&& flagRemoteEphemReq = 0)
    (supplied : Supplied suite pattern.flags side psk party other)
    (supplied' : Supplied suite pattern.flags (!side) psk other party) :
    Shows suite (knownBefore pattern.flags) owner peer := by
  have copies {slot : KeySlot} (owned : owns pattern.flags side slot = true) :
      Copies suite slot owner peer (ownKey suite party slot) (seenKey suite other slot) := by
    refine ⟨?_, ?_, ownKey_algorithm party slot, seenKey_algorithm other slot⟩
    · rw [prepared.localKey, if_pos owned]
    · rw [prepared'.remoteKey, Bool.not_not, if_pos owned]
  have keyPair (owned : owns pattern.flags side .static = true) :
      (ownKey suite party .static).IsKeyPair := by
    have given := supplied.staticKey
    rw [owned] at given
    obtain ⟨value, given⟩ := Option.isSome_iff_exists.mp given
    rw [ownKey, given]
    exact DHState.setPrivateKey_isKeyPair _ value
  constructor
  · intro slot owned
    rw [prepared.pattern, prepared.isInitiator] at owned
    refine ⟨_, _, copies owned, fun static => ?_⟩
    subst static
    exact keyPair owned
  · intro slot known
    rw [prepared.isInitiator] at known
    obtain ⟨rfl, needed⟩ := mem_knownBefore found ordinary known
    have owned := owns_of_required ready needed
    refine ⟨_, _, copies owned, keyPair owned, ?_⟩
    have given := supplied.staticKey
    rw [owned] at given
    obtain ⟨value, given⟩ := Option.isSome_iff_exists.mp given
    have remote := supplied'.remoteStatic
    rw [Bool.not_not, if_pos needed, Party.publicKey, given] at remote
    have short : value.take (suite.algorithm .static).keyLength = value :=
      List.take_of_length_le (supplied.length value given).le
    rw [seenKey, remote, ownKey, given]
    show ((suite.algorithm .static).eval value none).take (suite.algorithm .static).keyLength =
      (suite.algorithm .static).eval (value.take (suite.algorithm .static).keyLength) none
    rw [short]
    exact List.take_of_length_le ((suite.algorithm .static).eval_length value none).le

theorem prepared_turn {name : String} {symmetric : SymmetricState}
    (prepared : IsPrepared suite pattern true first initiator)
    (prepared' : IsPrepared suite pattern false second responder)
    (found : lookup name = some pattern) (ready : pattern.ready = true)
    (ordinary : pattern.flags &&& flagRemoteEphemReq = 0)
    (agreed : Agreed suite pattern.flags psk first second)
    (same : initiator.symmetric = symmetric) (same' : responder.symmetric = symmetric)
    (decrypts : symmetric.cipher.algorithm.Decrypts) (unused : symmetric.cipher.nonce = 0) :
    Turn suite initiator responder ∧ initiator.remaining = pattern.tokens := by
  have whole : initiator.remaining = pattern.tokens := by
    rw [remaining, prepared.pattern, prepared.patternIndex]
    rfl
  refine ⟨⟨⟨knownBefore pattern.flags, ?_, ?_⟩, prepared.action, prepared'.action, ?_, ?_⟩, whole⟩
  · exact
      { symmetric := same'.trans same.symm
        role := by rw [prepared.isInitiator, prepared'.isInitiator]; rfl
        pattern := prepared'.pattern.trans prepared.pattern.symm
        index := prepared'.patternIndex.trans prepared.patternIndex.symm
        psk := by rw [prepared.preSharedKey, prepared'.preSharedKey, agreed.preSharedKey]
        shows := prepared.shows prepared' found ready ordinary agreed.supplied agreed.supplied'
        shown := prepared'.shows prepared found ready ordinary agreed.supplied' agreed.supplied }
  · rw [prepared.pattern, whole, prepared.isInitiator]
    rw [Pattern.ready, Bool.and_eq_true] at ready
    exact ready.2
  · rw [same]
    exact decrypts
  · have short : pattern.tokens.length ≤ 12 := patterns_short _ (lookup_mem found)
    rw [same, unused, whole, lastNonce]
    omega

end FirstTurn

end Conclave.NoiseProtocol
