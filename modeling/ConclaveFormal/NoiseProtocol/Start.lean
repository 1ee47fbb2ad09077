import ConclaveFormal.Lib.Fallible
import ConclaveFormal.NoiseProtocol.Messages

/-!
# From a protocol name to the first message

What a new handshake state has, what its requirements ask for, and what `start`
leaves: the hash of everything both sides must agree on before the first message.
-/

set_option autoImplicit false

namespace Conclave.NoiseProtocol

open Conclave.Lib Attempt Pattern HandshakeState

/-! ## Flags -/

/-- What the flags of one side say about its own keys and those of the other side. -/
structure Flagged (flags : UInt16) (pattern : Pattern) (initiator : Bool) : Prop where
  own : ∀ slot, (flags &&& slotFlag true slot != 0) = owns pattern.flags initiator slot
  other : ∀ slot, (flags &&& slotFlag false slot != 0) = owns pattern.flags (!initiator) slot
  ownRequired : (flags &&& flagLocalRequired != 0) = required pattern.flags initiator
  otherRequired : (flags &&& flagRemoteRequired != 0) = required pattern.flags (!initiator)

theorem lookup_mem {name : String} {pattern : Pattern} (found : lookup name = some pattern) :
    (name, pattern) ∈ patterns := by
  obtain ⟨before, after, split, _⟩ := List.lookup_eq_some_iff.mp found
  rw [split]
  exact List.mem_append_right _ List.mem_cons_self

theorem reverseFlags_slot : ∀ entry ∈ patterns, ∀ slot ∈ [KeySlot.static, .ephemeral, .hybrid],
    (reverseFlags entry.2.flags &&& slotFlag true slot != 0) = owns entry.2.flags false slot ∧
      (reverseFlags entry.2.flags &&& slotFlag false slot != 0) =
        owns entry.2.flags true slot := by
  decide

theorem reverseFlags_required : ∀ entry ∈ patterns,
    (reverseFlags entry.2.flags &&& flagLocalRequired != 0) = required entry.2.flags false ∧
      (reverseFlags entry.2.flags &&& flagRemoteRequired != 0) =
        required entry.2.flags true := by
  decide

theorem flagsOf_flagged {name : String} {pattern : Pattern} (found : lookup name = some pattern)
    (role : Role) : Flagged (flagsOf pattern role) pattern (role == .initiator) := by
  have member := lookup_mem found
  cases role with
  | initiator => exact ⟨fun _ => rfl, fun _ => rfl, rfl, rfl⟩
  | responder =>
      have slots (slot : KeySlot) : slot ∈ [KeySlot.static, .ephemeral, .hybrid] := by
        cases slot <;> decide
      exact ⟨fun slot => (reverseFlags_slot _ member slot (slots slot)).1,
        fun slot => (reverseFlags_slot _ member slot (slots slot)).2,
        (reverseFlags_required _ member).1, (reverseFlags_required _ member).2⟩

/-! ## Requirements -/

def HandshakeState.requires (state : HandshakeState) (requirement : UInt32) : Bool :=
  state.requirements &&& requirement != 0

/-- The requirements, one by one. -/
structure Requirements (requirements : UInt32) (own ownRequired otherRequired reused psk : Bool) :
    Prop where
  localRequired : (requirements &&& localRequired != 0) = (own || ownRequired)
  remoteRequired : (requirements &&& remoteRequired != 0) = otherRequired
  pskRequired : (requirements &&& pskRequired != 0) = psk
  fallbackPremsg : (requirements &&& fallbackPremsg != 0) = reused
  localPremsg : (requirements &&& localPremsg != 0) = ownRequired
  remotePremsg : (requirements &&& remotePremsg != 0) = otherRequired

theorem requirements_bits (own ownRequired otherRequired reused psk : Bool) {extra : UInt32}
    (spare : extra = 0 ∨ extra = fallbackPossible) :
    Requirements
      (extra ||| ((if own then localRequired else 0) |||
        (if ownRequired then localRequired ||| localPremsg else 0) |||
        (if otherRequired then remoteRequired ||| remotePremsg else 0) |||
        (if reused then fallbackPremsg else 0) ||| (if psk then pskRequired else 0)))
      own ownRequired otherRequired reused psk := by
  rcases spare with rfl | rfl
  · cases own <;> cases ownRequired <;> cases otherRequired <;> cases reused <;> cases psk <;>
      exact ⟨rfl, rfl, rfl, rfl, rfl, rfl⟩
  · cases own <;> cases ownRequired <;> cases otherRequired <;> cases reused <;> cases psk <;>
      exact ⟨rfl, rfl, rfl, rfl, rfl, rfl⟩

/-- The requirements of a pattern say nothing of whether one can fall back from it. -/
theorem computeRequirements_possible (flags : UInt16) (protocolPrefix : String)
    (isFallback : Bool) {extra : UInt32} (spare : extra = 0 ∨ extra = fallbackPossible) :
    ((extra ||| computeRequirements flags protocolPrefix isFallback) &&& fallbackPossible != 0) =
      (extra != 0) := by
  have bits : ∀ own ownRequired otherRequired reused psk : Bool,
      ((extra ||| ((if own then localRequired else 0) |||
        (if ownRequired then localRequired ||| localPremsg else 0) |||
        (if otherRequired then remoteRequired ||| remotePremsg else 0) |||
        (if reused then fallbackPremsg else 0) ||| (if psk then pskRequired else 0))) &&&
          fallbackPossible != 0) = (extra != 0) := by
    rcases spare with rfl | rfl <;> decide
  have here := bits (flags &&& flagLocalStatic != 0) (flags &&& flagLocalRequired != 0)
    (flags &&& flagRemoteRequired != 0)
    (flags &&& (flagRemoteEphemReq ||| flagLocalEphemReq) != 0 && isFallback)
    (protocolPrefix == "NoisePSK")
  simp only [bne_iff_ne, Bool.and_eq_true, beq_iff_eq] at here
  exact here

theorem computeRequirements_bits {flags : UInt16} {pattern : Pattern} {initiator : Bool}
    (flagged : Flagged flags pattern initiator) (protocolPrefix : String) (isFallback : Bool)
    {extra : UInt32} (spare : extra = 0 ∨ extra = fallbackPossible) :
    Requirements (extra ||| computeRequirements flags protocolPrefix isFallback)
      (owns pattern.flags initiator .static) (required pattern.flags initiator)
      (required pattern.flags (!initiator))
      (flags &&& (flagRemoteEphemReq ||| flagLocalEphemReq) != 0 && isFallback)
      (protocolPrefix == "NoisePSK") := by
  have bits := requirements_bits (flags &&& flagLocalStatic != 0) (flags &&& flagLocalRequired != 0)
    (flags &&& flagRemoteRequired != 0)
    (flags &&& (flagRemoteEphemReq ||| flagLocalEphemReq) != 0 && isFallback)
    (protocolPrefix == "NoisePSK") spare
  simp only [bne_iff_ne, Bool.and_eq_true, beq_iff_eq] at bits
  rw [computeRequirements]
  have own := flagged.own .static
  rw [← flagged.ownRequired, ← flagged.otherRequired, ← own]
  exact bits

/-! ## A new state -/

/-- The curve `createDH` chooses. -/
def Crypto.curve (crypto : Crypto) (name : String) : DHAlgorithm :=
  if name = "25519" then crypto.curve25519 else crypto.curve448

/-- Both curves are groups. -/
structure Crypto.Commutes (crypto : Crypto) : Prop where
  curve25519 : crypto.curve25519.Commutes
  curve448 : crypto.curve448.Commutes

/-- The curves that the name of a Diffie-Hellman function stands for. -/
def Crypto.suite (crypto : Crypto) (commutes : crypto.Commutes) (dh : String) : Suite where
  algorithm := fun slot =>
    match slot with
    | .hybrid => crypto.curve (hybridName dh)
    | _ => crypto.curve (regularName dh)
  commutes := by
    have curve (name : String) : (crypto.curve name).Commutes := by
      rw [Crypto.curve]
      split
      · exact commutes.curve25519
      · exact commutes.curve448
    intro slot
    cases slot <;> exact curve _
  regular := rfl

theorem createFor_eq_ok {crypto : Crypto} {flags flag : UInt16} {name : String}
    {key : Option DHState} (created : createFor crypto flags flag name = .ok key) :
    key = if flags &&& flag != 0 then some (DHState.new (crypto.curve name)) else none := by
  simp only [bne_iff_ne]
  rw [createFor] at created
  split at created
  · rename_i flagged
    rw [if_pos flagged]
    obtain ⟨dh, returned, rfl⟩ := map_eq_ok created
    rw [Noise.createDH] at returned
    by_cases short : name = "25519"
    · rw [if_pos short] at returned
      cases returned
      rw [Crypto.curve, if_pos short]
    · rw [if_neg short] at returned
      split at returned
      · cases returned
        rw [Crypto.curve, if_neg short]
      · cases returned
  · rename_i unflagged
    rw [if_neg unflagged]
    cases created
    rfl

/-- What a new state has for each side's keys: nothing yet in those the pattern has. -/
structure Fresh (suite : Suite) (pattern : Pattern) (initiator psk : Bool)
    (symmetric : SymmetricState) (state : HandshakeState) : Prop where
  symmetric : state.symmetric = symmetric
  isInitiator : state.isInitiator = initiator
  patternIndex : state.patternIndex = 0
  action : state.action = .noAction
  preSharedKey : state.preSharedKey = none
  prologue : state.prologue = none
  localKey : ∀ slot, state.localKey slot =
    if owns pattern.flags initiator slot then some (DHState.new (suite.algorithm slot)) else none
  remoteKey : ∀ slot, state.remoteKey slot =
    if owns pattern.flags (!initiator) slot then some (DHState.new (suite.algorithm slot))
    else none
  requirements : Requirements state.requirements (owns pattern.flags initiator .static)
    (required pattern.flags initiator) (required pattern.flags (!initiator)) false psk
  fallback : ∃ patternId, lookup patternId = some pattern ∧
    state.requires fallbackPossible = (extraReqs pattern patternId != 0)
  pattern : state.pattern = pattern

/-- The five components of a protocol name that is accepted. -/
structure Named (crypto : Crypto) (protocolName dh : String) (psk : Bool) (pattern : Pattern)
    (symmetric : SymmetricState) : Prop where
  components : ∃ protocolPrefix patternId cipher hash,
    splitName protocolName = [protocolPrefix, patternId, dh, cipher, hash] ∧
    psk = (protocolPrefix == "NoisePSK") ∧ lookup patternId = some pattern ∧
    SymmetricState.new crypto protocolName cipher hash = .ok symmetric

theorem extraReqs_spare (pattern : Pattern) (patternId : String) :
    extraReqs pattern patternId = 0 ∨ extraReqs pattern patternId = fallbackPossible := by
  rw [extraReqs]
  split
  · exact Or.inr rfl
  · exact Or.inl rfl

theorem new_fresh {crypto : Crypto} (commutes : crypto.Commutes) {protocolName : String}
    {role : Role} {state : HandshakeState} (created : new crypto protocolName role = .ok state) :
    ∃ dh psk pattern symmetric, Named crypto protocolName dh psk pattern symmetric ∧
      Fresh (crypto.suite commutes dh) pattern (role == .initiator) psk symmetric state := by
  rw [new] at created
  split at created
  · rename_i protocolPrefix patternId dh cipher hash components
    split at created
    · cases created
    · split at created
      · cases created
      · rename_i pattern found
        obtain ⟨_, _, created⟩ := bind_eq_ok created
        obtain ⟨symmetric, symmetric_eq, created⟩ := bind_eq_ok created
        obtain ⟨localKeyPair, localStatic, created⟩ := bind_eq_ok created
        obtain ⟨localEphemeral, localEphemeral_eq, created⟩ := bind_eq_ok created
        obtain ⟨localHybrid, localHybrid_eq, created⟩ := bind_eq_ok created
        obtain ⟨remotePublicKey, remoteStatic, created⟩ := bind_eq_ok created
        obtain ⟨remoteEphemeral, remoteEphemeral_eq, created⟩ := bind_eq_ok created
        obtain ⟨remoteHybrid, remoteHybrid_eq, created⟩ := bind_eq_ok created
        cases created
        have flagged := flagsOf_flagged found role
        refine ⟨dh, protocolPrefix == "NoisePSK", pattern, symmetric,
          ⟨protocolPrefix, patternId, cipher, hash, components, rfl, found, symmetric_eq⟩,
          { symmetric := rfl
            isInitiator := rfl
            patternIndex := rfl
            action := rfl
            preSharedKey := rfl
            prologue := rfl
            localKey := fun slot => ?_
            remoteKey := fun slot => ?_
            requirements := ?_
            fallback := ⟨patternId, found, computeRequirements_possible _ _ _
              (extraReqs_spare pattern patternId)⟩
            pattern := rfl }⟩
        · rw [← flagged.own slot]
          cases slot with
          | static => exact createFor_eq_ok localStatic
          | ephemeral => exact createFor_eq_ok localEphemeral_eq
          | hybrid => exact createFor_eq_ok localHybrid_eq
        · rw [← flagged.other slot]
          cases slot with
          | static => exact createFor_eq_ok remoteStatic
          | ephemeral => exact createFor_eq_ok remoteEphemeral_eq
          | hybrid => exact createFor_eq_ok remoteHybrid_eq
        · have bits := computeRequirements_bits flagged protocolPrefix false
            (extraReqs_spare pattern patternId)
          rw [Bool.and_false] at bits
          exact bits
  · cases created

theorem Named.unique {crypto : Crypto} {protocolName dh dh' : String} {psk psk' : Bool}
    {pattern pattern' : Pattern} {symmetric symmetric' : SymmetricState}
    (named : Named crypto protocolName dh psk pattern symmetric)
    (named' : Named crypto protocolName dh' psk' pattern' symmetric') :
    dh' = dh ∧ psk' = psk ∧ pattern' = pattern ∧ symmetric' = symmetric := by
  obtain ⟨protocolPrefix, patternId, cipher, hash, components, rfl, found, built⟩ :=
    named.components
  obtain ⟨protocolPrefix', patternId', cipher', hash', components', rfl, found', built'⟩ :=
    named'.components
  rw [components] at components'
  cases components'
  rw [found] at found'
  rw [built] at built'
  cases found'
  cases built'
  exact ⟨rfl, rfl, rfl, rfl⟩

/-! ## Starting -/

def SymmetricState.mixOptional (symmetric : SymmetricState) (key : Option Bytes) :
    SymmetricState :=
  match key with
  | none => symmetric
  | some key => symmetric.mixHash key

/-- The keys of a message before a fallback. -/
def SymmetricState.mixReused (symmetric : SymmetricState) (psk : Bool)
    (reused : Option (Bytes × Option Bytes)) : SymmetricState :=
  match reused with
  | none => symmetric
  | some (ephemeral, hybrid) =>
      if psk then ((symmetric.mixHash ephemeral).mixOptional hybrid).mixKey ephemeral
      else (symmetric.mixHash ephemeral).mixOptional hybrid

def SymmetricState.mixOptionalKey (symmetric : SymmetricState) (key : Option Bytes) :
    SymmetricState :=
  match key with
  | none => symmetric
  | some key => symmetric.mixPreSharedKey key

namespace HandshakeState

variable {state : HandshakeState}

def premessage (state : HandshakeState) (requirement : UInt32) (key : Option DHState) :
    Option Bytes :=
  if state.requires requirement then key.map DHState.publicKey else none

def reusedKeys (state : HandshakeState) (ephemeral hybrid : Option DHState) :
    Option (Bytes × Option Bytes) :=
  if state.requires fallbackPremsg then
    ephemeral.map fun key => (key.publicKey, hybrid.map DHState.publicKey)
  else none

theorem setSymmetric_preSharedKey (symmetric : SymmetricState) :
    (setSymmetric symmetric state).preSharedKey = state.preSharedKey := rfl

theorem onSymmetric_bind {β : Type} (change : SymmetricState → SymmetricState)
    (next : Unit → Handshaking β) :
    (onSymmetric change >>= next) state =
      next () (setSymmetric (change state.symmetric) state) := rfl

theorem mixFallback_eq (dh : DHState) (hybrid : Option DHState) :
    mixFallback (some dh) hybrid state =
      (.ok (), setSymmetric (state.symmetric.mixReused state.preSharedKey.isSome
        (some (dh.publicKey, hybrid.map DHState.publicKey))) state) := by
  cases hybrid <;> cases psk : state.preSharedKey.isSome <;>
    simp only [mixFallback, mixPublicKey, onSymmetric_bind, Option.isSome_none, Option.isSome_some,
      Bool.false_eq_true, if_true, if_false, get_bind, setSymmetric_preSharedKey, psk,
      SymmetricState.mixReused] <;>
    rfl

theorem whenRequired_mixPublicKey {requirement : UInt32} {key : Option DHState}
    (there : state.requires requirement = true → key.isSome = true) :
    whenRequired requirement (mixPublicKey key) state =
      (.ok (), setSymmetric (state.symmetric.mixOptional (state.premessage requirement key))
        state) := by
  rw [whenRequired, get_bind, premessage]
  cases required : state.requires requirement with
  | false =>
      rw [requires, bne_eq_false_iff_eq] at required
      rw [if_neg (not_not_intro required)]
      rfl
  | true =>
      obtain ⟨dh, rfl⟩ := Option.isSome_iff_exists.mp (there required)
      rw [requires, bne_iff_ne] at required
      rw [if_pos required]
      rfl

theorem whenRequired_mixFallback {ephemeral hybrid : Option DHState}
    (there : state.requires fallbackPremsg = true → ephemeral.isSome = true) :
    whenRequired fallbackPremsg (mixFallback ephemeral hybrid) state =
      (.ok (), setSymmetric (state.symmetric.mixReused state.preSharedKey.isSome
        (state.reusedKeys ephemeral hybrid)) state) := by
  rw [whenRequired, get_bind, reusedKeys]
  cases required : state.requires fallbackPremsg with
  | false =>
      rw [requires, bne_eq_false_iff_eq] at required
      rw [if_neg (not_not_intro required)]
      rfl
  | true =>
      obtain ⟨dh, rfl⟩ := Option.isSome_iff_exists.mp (there required)
      rw [requires, bne_iff_ne] at required
      rw [if_pos required]
      exact mixFallback_eq dh hybrid

/-- What `start` checks. -/
structure CanStart (state : HandshakeState) : Prop where
  idle : state.action = .noAction
  possible : state.pattern.flags &&& flagRemoteEphemReq ≠ 0 →
    state.requires fallbackPremsg = true
  own : state.requires localRequired = true → hasPrivateKey state.localKeyPair = true
  other : state.requires remoteRequired = true → hasPublicKey state.remotePublicKey = true
  psk : state.requires pskRequired = true → state.preSharedKey.isSome = true
  ownHashed : state.requires localPremsg = true → state.localKeyPair.isSome = true
  otherHashed : state.requires remotePremsg = true → state.remotePublicKey.isSome = true
  reused : state.requires fallbackPremsg = true →
    (if state.isInitiator then state.remoteEphemeral else state.localEphemeral).isSome = true

theorem mixPreSharedKey_eq (key : Option Bytes) :
    mixPreSharedKey key state =
      (.ok (), setSymmetric (state.symmetric.mixOptionalKey key) state) := by
  cases key <;> rfl

/-- What the keys before the first message add to a symmetric state. -/
def premessages (state : HandshakeState) (symmetric : SymmetricState) : SymmetricState :=
  let own := state.premessage localPremsg state.localKeyPair
  let other := state.premessage remotePremsg state.remotePublicKey
  let psk := state.preSharedKey.isSome
  if state.isInitiator then
    ((symmetric.mixOptional own).mixReused psk
      (state.reusedKeys state.remoteEphemeral state.remoteHybrid)).mixOptional other
  else
    ((symmetric.mixOptional other).mixReused psk
      (state.reusedKeys state.localEphemeral state.localHybrid)).mixOptional own

/-- The keys are hashed one after the other, and hashing changes no requirement. -/
theorem mixInOrder {requirement requirement' : UInt32}
    {first ephemeral hybrid second : Option DHState}
    (there : state.requires requirement = true → first.isSome = true)
    (reused : state.requires fallbackPremsg = true → ephemeral.isSome = true)
    (there' : state.requires requirement' = true → second.isSome = true) :
    (do
      whenRequired requirement (mixPublicKey first)
      whenRequired fallbackPremsg (mixFallback ephemeral hybrid)
      whenRequired requirement' (mixPublicKey second)) state =
    (.ok (), setSymmetric
      (((state.symmetric.mixOptional (state.premessage requirement first)).mixReused
        state.preSharedKey.isSome (state.reusedKeys ephemeral hybrid)).mixOptional
          (state.premessage requirement' second)) state) := by
  rw [bind_ok (whenRequired_mixPublicKey there)]
  refine (bind_ok (whenRequired_mixFallback ?_)).trans (whenRequired_mixPublicKey ?_)
  · exact reused
  · exact there'

theorem mixPremessages_eq
    (ownHashed : state.requires localPremsg = true → state.localKeyPair.isSome = true)
    (otherHashed : state.requires remotePremsg = true → state.remotePublicKey.isSome = true)
    (reused : state.requires fallbackPremsg = true →
      (if state.isInitiator then state.remoteEphemeral else state.localEphemeral).isSome = true) :
    mixPremessages state =
      (.ok (), setSymmetric (state.premessages state.symmetric) state) := by
  rw [mixPremessages, get_bind, premessages]
  split at reused
  · rename_i initiator
    rw [if_pos initiator, if_pos initiator]
    exact mixInOrder ownHashed reused otherHashed
  · rename_i responder
    rw [if_neg responder, if_neg responder]
    exact mixInOrder otherHashed reused ownHashed

/-- What both sides have hashed once they have started. -/
def started (state : HandshakeState) : SymmetricState :=
  state.premessages
    ((state.symmetric.mixHash (state.prologue.getD [])).mixOptionalKey state.preSharedKey)

theorem start_eq (can : CanStart state) :
    start state =
      (.ok (), { setSymmetric state.started state with
        action := if state.isInitiator then .writeMessage else .readMessage }) := by
  have possible : ¬(state.pattern.flags &&& flagRemoteEphemReq ≠ 0 ∧
      state.requirements &&& fallbackPremsg = 0) := fun both => by
    have needed := can.possible both.1
    rw [requires, bne_iff_ne] at needed
    exact needed both.2
  have own : ¬(state.requirements &&& localRequired ≠ 0 ∧
      hasPrivateKey state.localKeyPair = false) := fun both => by
    rw [can.own (bne_iff_ne.mpr both.1)] at both
    exact Bool.noConfusion both.2
  have other : ¬(state.requirements &&& remoteRequired ≠ 0 ∧
      hasPublicKey state.remotePublicKey = false) := fun both => by
    rw [can.other (bne_iff_ne.mpr both.1)] at both
    exact Bool.noConfusion both.2
  have psk : ¬(state.requirements &&& pskRequired ≠ 0 ∧ state.preSharedKey.isNone = true) :=
    fun both => by
      have needed := can.psk (bne_iff_ne.mpr both.1)
      rw [Option.isSome_iff_ne_none] at needed
      exact needed (Option.isNone_iff_eq_none.mp both.2)
  rw [start, get_bind, if_neg (not_not_intro can.idle), if_neg possible, if_neg own, if_neg other,
    if_neg psk, onSymmetric_bind]
  rw [bind_ok (mixPreSharedKey_eq _), bind_ok (mixPremessages_eq ?_ ?_ ?_)]
  · rfl
  · exact can.ownHashed
  · exact can.otherHashed
  · exact can.reused

end HandshakeState

end Conclave.NoiseProtocol
