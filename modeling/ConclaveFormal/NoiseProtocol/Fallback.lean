import ConclaveFormal.NoiseProtocol.Conversation

/-!
# Falling back

An initiator that has an outdated static key of the responder writes a message
the responder cannot read.  Both then fall back to `XXfallback`, in which the
responder answers and the ephemeral key of that message is used again.
-/

set_option autoImplicit false

namespace Conclave.NoiseProtocol

open Conclave.Lib Attempt Pattern HandshakeState

/-! ## What tokens leave alone -/

/-- All but the symmetric state, the action, the place in the pattern and the public keys that
are received; a hybrid key does not come from nowhere. -/
structure Settled (state after : HandshakeState) : Prop where
  name : after.symmetric.name = state.symmetric.name
  isInitiator : after.isInitiator = state.isInitiator
  localKeyPair : after.localKeyPair = state.localKeyPair
  localEphemeral : after.localEphemeral = state.localEphemeral
  localHybrid : state.localHybrid = none → after.localHybrid = none
  remotePublicKey : after.remotePublicKey.map DHState.algorithm =
    state.remotePublicKey.map DHState.algorithm
  remoteEphemeral : after.remoteEphemeral = state.remoteEphemeral
  remoteHybrid : state.remoteHybrid = none → after.remoteHybrid = none
  requirements : after.requirements = state.requirements
  preSharedKey : after.preSharedKey = state.preSharedKey
  prologue : after.prologue = state.prologue

namespace Settled

theorem refl (state : HandshakeState) : Settled state state :=
  ⟨rfl, rfl, rfl, rfl, id, rfl, rfl, id, rfl, rfl, rfl⟩

theorem trans (first second third : HandshakeState) (before : Settled first second)
    (after : Settled second third) : Settled first third where
  name := after.name.trans before.name
  isInitiator := after.isInitiator.trans before.isInitiator
  localKeyPair := after.localKeyPair.trans before.localKeyPair
  localEphemeral := after.localEphemeral.trans before.localEphemeral
  localHybrid := after.localHybrid ∘ before.localHybrid
  remotePublicKey := after.remotePublicKey.trans before.remotePublicKey
  remoteEphemeral := after.remoteEphemeral.trans before.remoteEphemeral
  remoteHybrid := after.remoteHybrid ∘ before.remoteHybrid
  requirements := after.requirements.trans before.requirements
  preSharedKey := after.preSharedKey.trans before.preSharedKey
  prologue := after.prologue.trans before.prologue

theorem setSymmetric {symmetric : SymmetricState} {state : HandshakeState}
    (name : symmetric.name = state.symmetric.name) :
    Settled state (HandshakeState.setSymmetric symmetric state) :=
  ⟨name, rfl, rfl, rfl, id, rfl, rfl, id, rfl, rfl, rfl⟩

end Settled

/-- The name of the protocol is only set when a state is created. -/
def SameName (state after : SymmetricState) : Prop := after.name = state.name

theorem SymmetricState.encryptAndHash_name (plaintext : Bytes) (space : Nat) :
    Preserves SameName (SymmetricState.encryptAndHash plaintext space) := by
  intro state
  refine related_bind (fun _ _ _ first second => second.trans first) rfl fun value after got => ?_
  cases got
  refine related_bind (fun _ _ _ first second => second.trans first) ?_
    fun ciphertext after _ => rfl
  exact rfl

theorem SymmetricState.decryptAndHash_name (ciphertext : Bytes) (space : Nat) :
    Preserves SameName (SymmetricState.decryptAndHash ciphertext space) := by
  intro state
  rfl

theorem encryptAndHash_settled (plaintext : Bytes) (space : Nat) :
    Preserves Settled (encryptAndHash plaintext space) :=
  Preserves.within (SymmetricState.encryptAndHash_name plaintext space)
    fun _ _ name => Settled.setSymmetric name

theorem decryptAndHash_settled (ciphertext : Bytes) (space : Nat) :
    Preserves Settled (decryptAndHash ciphertext space) :=
  Preserves.within (SymmetricState.decryptAndHash_name ciphertext space)
    fun _ _ name => Settled.setSymmetric name

theorem mixDH_settled (localKey remoteKey : Option DHState) :
    Preserves Settled (mixDH localKey remoteKey) := by
  intro state
  cases localKey with
  | none => exact Settled.refl state
  | some localKey =>
      cases remoteKey with
      | none => exact Settled.refl state
      | some remoteKey =>
          rw [mixDH]
          cases localKey.calculate remoteKey with
          | error e => exact Settled.refl state
          | ok shared => exact Settled.setSymmetric rfl

theorem mixToken_settled (token : Token) : Preserves Settled (mixToken token) := by
  intro state
  rw [mixToken, get_bind]
  cases token with
  | ee => exact mixDH_settled _ _ state
  | es =>
      cases state.isInitiator with
      | true => exact mixDH_settled _ _ state
      | false => exact mixDH_settled _ _ state
  | se =>
      cases state.isInitiator with
      | true => exact mixDH_settled _ _ state
      | false => exact mixDH_settled _ _ state
  | ss => exact mixDH_settled _ _ state
  | ff => exact mixDH_settled _ _ state
  | _ => exact Settled.refl state

theorem writeToken_settled {token : Token} (old : token ≠ .e) (random : Bytes) (space : Nat) :
    Preserves Settled (writeToken random space token) := by
  intro state
  cases mixes : token.mixed with
  | some pair =>
      rw [writeToken_mixed mixes]
      exact related_bind Settled.trans (mixToken_settled token state) fun _ after _ =>
        Settled.refl after
  | none =>
      rw [writeToken, get_bind]
      cases token with
      | e => exact absurd rfl old
      | s =>
          cases state.localKeyPair with
          | none => exact Settled.refl state
          | some keyPair =>
              simp only
              split
              · exact Settled.refl state
              · exact encryptAndHash_settled _ _ state
      | f =>
          cases held : state.localHybrid with
          | none => exact Settled.refl state
          | some keyPair =>
              have generated : Settled state
                  { state with localHybrid := some (keyPair.generateKeyPair random) } :=
                ⟨rfl, rfl, rfl, rfl,
                  fun nothing => absurd (held.symm.trans nothing) (Option.some_ne_none _), rfl, rfl,
                  id, rfl, rfl, rfl⟩
              simp only [modify_bind]
              split
              · exact generated
              · exact generated.trans _ _ _ (encryptAndHash_settled _ _ _)
      | flipDir => exact Settled.refl state
      | _ => cases mixes

theorem readPublicKey_settled (remote : DHState) (message : Bytes) :
    Preserves Settled (readPublicKey remote message) := by
  intro state
  rw [readPublicKey, get_bind]
  split
  · exact Settled.refl state
  · refine related_bind Settled.trans (decryptAndHash_settled _ _ state) fun key after _ => ?_
    split <;> exact Settled.refl after

theorem readPublicKey_algorithm {remote remote' : DHState} {message rest : Bytes}
    {state after : HandshakeState}
    (ran : readPublicKey remote message state = (.ok (remote', rest), after)) :
    remote'.algorithm = remote.algorithm := by
  rw [readPublicKey, get_bind] at ran
  split at ran
  · cases ran
  · obtain ⟨key, middle, _, ran⟩ := bind_eq_ok ran
    split at ran
    · cases ran
    · cases ran
      rfl

theorem readToken_settled {token : Token} (old : token ≠ .e) (message : Bytes) :
    Preserves Settled (readToken message token) := by
  intro state
  cases mixes : token.mixed with
  | some pair =>
      rw [readToken_mixed mixes]
      exact related_bind Settled.trans (mixToken_settled token state) fun _ after _ =>
        Settled.refl after
  | none =>
      rw [readToken, get_bind]
      cases token with
      | e => exact absurd rfl old
      | s =>
          cases held : state.remotePublicKey with
          | none => exact Settled.refl state
          | some remote =>
              have before := readPublicKey_settled remote message state
              refine related_bind Settled.trans before fun read after ran => ?_
              rw [ran] at before
              have algorithm := readPublicKey_algorithm ran
              refine ⟨rfl, rfl, rfl, rfl, id, ?_, rfl, id, rfl, rfl, rfl⟩
              show some read.1.algorithm = after.remotePublicKey.map DHState.algorithm
              rw [before.remotePublicKey, held, algorithm]
              rfl
      | f =>
          cases held : state.remoteHybrid with
          | none => exact Settled.refl state
          | some remote =>
              have before := readPublicKey_settled remote message state
              cases ran : readPublicKey remote message state with
              | mk outcome after =>
                  rw [ran] at before
                  cases outcome with
                  | error e =>
                      simp only [bind_error ran]
                      exact before
                  | ok read =>
                      simp only [bind_ok ran]
                      exact { before with
                        remoteHybrid := fun nothing =>
                          absurd (held.symm.trans nothing) (Option.some_ne_none _) }
      | flipDir => exact Settled.refl state
      | _ => cases mixes

/-- The tokens that are still part of the message. -/
def thisMessage (tokens : List Token) : List Token :=
  tokens.takeWhile fun token => token ≠ .flipDir

theorem writeTokens_settled (random : Nat → Bytes) (tokens : List Token) :
    ∀ space, Token.e ∉ thisMessage tokens →
      Preserves Settled (writeTokens random tokens space) := by
  induction tokens with
  | nil => exact fun _ _ state => ⟨rfl, rfl, rfl, rfl, id, rfl, rfl, id, rfl, rfl, rfl⟩
  | cons token tokens ih =>
      intro space old state
      have moved : Settled state { state with patternIndex := state.patternIndex + 1 } :=
        ⟨rfl, rfl, rfl, rfl, id, rfl, rfl, id, rfl, rfl, rfl⟩
      rw [writeTokens, get_bind, modify_bind]
      by_cases flips : token = .flipDir
      · rw [if_pos flips]
        exact ⟨rfl, rfl, rfl, rfl, id, rfl, rfl, id, rfl, rfl, rfl⟩
      · rw [if_neg flips]
        rw [thisMessage, List.takeWhile_cons_of_pos (by simpa using flips)] at old
        have first : token ≠ .e := fun same => old (same ▸ List.mem_cons_self)
        have later : Token.e ∉ thisMessage tokens := fun member =>
          old (List.mem_cons_of_mem _ member)
        refine moved.trans _ _ _ (related_bind Settled.trans (writeToken_settled first _ _ _)
          fun written after _ => ?_)
        exact related_bind Settled.trans (ih _ later after) fun _ last _ => Settled.refl last

theorem readTokens_settled (tokens : List Token) :
    ∀ message, Token.e ∉ thisMessage tokens → Preserves Settled (readTokens tokens message) := by
  induction tokens with
  | nil => exact fun _ _ state => ⟨rfl, rfl, rfl, rfl, id, rfl, rfl, id, rfl, rfl, rfl⟩
  | cons token tokens ih =>
      intro message old state
      have moved : Settled state { state with patternIndex := state.patternIndex + 1 } :=
        ⟨rfl, rfl, rfl, rfl, id, rfl, rfl, id, rfl, rfl, rfl⟩
      rw [readTokens, modify_bind]
      by_cases flips : token = .flipDir
      · rw [if_pos flips]
        exact ⟨rfl, rfl, rfl, rfl, id, rfl, rfl, id, rfl, rfl, rfl⟩
      · rw [if_neg flips]
        rw [thisMessage, List.takeWhile_cons_of_pos (by simpa using flips)] at old
        have first : token ≠ .e := fun same => old (same ▸ List.mem_cons_self)
        have later : Token.e ∉ thisMessage tokens := fun member =>
          old (List.mem_cons_of_mem _ member)
        exact moved.trans _ _ _ (related_bind Settled.trans (readToken_settled first _ _)
          fun rest after _ => ih rest later after)

/-! ## The first message -/

section FirstMessage

variable {random : Nat → Bytes} {rest : List Token} {state after : HandshakeState}

theorem writeTokens_action (tokens : List Token) : ∀ {space : Nat} {keys : Bytes}
    {state after : HandshakeState}, writeTokens random tokens space state = (.ok keys, after) →
    after.action = if (afterMessage tokens).isSome then .readMessage else .split := by
  induction tokens with
  | nil =>
      intro space keys state after ran
      cases ran
      rfl
  | cons token tokens ih =>
      intro space keys state after ran
      rw [writeTokens, get_bind, modify_bind] at ran
      rw [afterMessage]
      by_cases flips : token = .flipDir
      · rw [if_pos flips] at ran ⊢
        cases ran
        rfl
      · rw [if_neg flips] at ran ⊢
        obtain ⟨_, _, _, ran⟩ := bind_eq_ok ran
        obtain ⟨_, _, later, ran⟩ := bind_eq_ok ran
        cases ran
        exact ih later

theorem readTokens_action (tokens : List Token) : ∀ {message body : Bytes}
    {state after : HandshakeState}, readTokens tokens message state = (.ok body, after) →
    after.action = if (afterMessage tokens).isSome then .writeMessage else .split := by
  induction tokens with
  | nil =>
      intro message body state after ran
      cases ran
      rfl
  | cons token tokens ih =>
      intro message body state after ran
      rw [readTokens, modify_bind] at ran
      rw [afterMessage]
      by_cases flips : token = .flipDir
      · rw [if_pos flips] at ran ⊢
        cases ran
        rfl
      · rw [if_neg flips] at ran ⊢
        obtain ⟨_, _, _, ran⟩ := bind_eq_ok ran
        exact ih ran

theorem failing_eq_ok {α : Type} {body : Handshaking α} {value : α}
    (ran : failing body state = (.ok value, after)) : body state = (.ok value, after) := by
  rw [failing, handle] at ran
  split at ran
  · rename_i first
    rw [first]
    exact ran
  · cases ran

/-- An ephemeral key is generated and sent in the clear. -/
theorem writeEphemeral {own : DHState} {bytes chunk : Bytes} {space : Nat}
    (ran : writeToken bytes space .e state = (.ok chunk, after))
    (held : state.localEphemeral = some own) :
    chunk = (own.generateKeyPair bytes).publicKey ∧
      Settled { state with localEphemeral := some (own.generateKeyPair bytes) } after := by
  rw [writeToken, get_bind] at ran
  simp only [held] at ran
  rw [modify_bind] at ran
  split at ran
  · cases ran
  · rw [onSymmetric, modify_bind] at ran
    split at ran
    · cases ran
      exact ⟨rfl, rfl, rfl, rfl, rfl, id, rfl, rfl, id, rfl, rfl, rfl⟩
    · cases ran
      exact ⟨rfl, rfl, rfl, rfl, rfl, id, rfl, rfl, id, rfl, rfl, rfl⟩

theorem readEphemeral {seen : DHState} {message : Bytes} (held : state.remoteEphemeral = some seen)
    (enough : seen.algorithm.keyLength ≤ message.length) :
    Settled
      { state with
        remoteEphemeral := some (seen.setPublicKey (message.take seen.algorithm.keyLength)) }
      (readToken message .e state).2 := by
  rw [readToken, get_bind]
  simp only [held]
  rw [if_neg (by omega), onSymmetric, modify_bind, modify_bind]
  split
  · exact ⟨rfl, rfl, rfl, rfl, id, rfl, rfl, id, rfl, rfl, rfl⟩
  · split
    · exact ⟨rfl, rfl, rfl, rfl, id, rfl, rfl, id, rfl, rfl, rfl⟩
    · exact ⟨rfl, rfl, rfl, rfl, id, rfl, rfl, id, rfl, rfl, rfl⟩

/-- A first message starts with the ephemeral key, which its writer keeps. -/
theorem writeMessage_first {own : DHState} {size messageOffset : Nat} {payload : Option Bytes}
    {message : Bytes} (begins : state.remaining = .e :: rest) (once : Token.e ∉ thisMessage rest)
    (held : state.localEphemeral = some own)
    (wrote : writeMessage random size messageOffset payload state = (.ok message, after)) :
    ∃ tail, message = (own.generateKeyPair (random state.patternIndex)).publicKey ++ tail ∧
      Settled { state with
        localEphemeral := some (own.generateKeyPair (random state.patternIndex)) } after ∧
      after.action = if (afterMessage rest).isSome then .readMessage else .split := by
  rw [writeMessage, get_bind] at wrote
  split at wrote
  · cases wrote
  · split at wrote
    · cases wrote
    · have ran := failing_eq_ok wrote
      rw [begins] at ran
      obtain ⟨keys, middle, tokens, ran⟩ := bind_eq_ok ran
      have action := writeTokens_action _ tokens
      rw [writeTokens, get_bind, modify_bind, if_neg (by decide)] at tokens
      obtain ⟨chunk, first, ephemeral, tokens⟩ := bind_eq_ok tokens
      obtain ⟨others, second, later, tokens⟩ := bind_eq_ok tokens
      cases tokens
      obtain ⟨body, last, encrypted, ran⟩ := bind_eq_ok ran
      cases ran
      obtain ⟨rfl, settled⟩ := writeEphemeral ephemeral held
      have generated : Settled
          { state with
            localEphemeral := some (own.generateKeyPair (random state.patternIndex)) } first :=
        ⟨settled.name, settled.isInitiator, settled.localKeyPair, settled.localEphemeral,
          settled.localHybrid, settled.remotePublicKey, settled.remoteEphemeral,
          settled.remoteHybrid, settled.requirements, settled.preSharedKey, settled.prologue⟩
      have keys := (writeTokens_settled random rest _ once).after later
      have last := (encryptAndHash_settled _ _).after encrypted
      refine ⟨others ++ body, List.append_assoc _ _ _,
        (generated.trans _ _ _ keys).trans _ _ _ last, ?_⟩
      obtain ⟨_, _, rfl⟩ := within_inverted encrypted
      exact action

/-- Whatever comes of it, reading a first message takes over the ephemeral key. -/
theorem readMessage_first {seen : DHState} {key : Bytes} (tail : Bytes) (space : Nat)
    (waiting : state.action = .readMessage) (begins : state.remaining = .e :: rest)
    (once : Token.e ∉ thisMessage rest) (held : state.remoteEphemeral = some seen)
    (length : key.length = seen.algorithm.keyLength) :
    Settled { state with remoteEphemeral := some (seen.setPublicKey key) }
        (readMessage (key ++ tail) space state).2 ∧
      ((readMessage (key ++ tail) space state).2.action = .failed ∨
        (readMessage (key ++ tail) space state).2.action =
          if (afterMessage rest).isSome then .writeMessage else .split) := by
  have short : (key ++ tail).take seen.algorithm.keyLength = key := by
    rw [← length]
    exact List.take_left
  have tokens : Settled { state with remoteEphemeral := some (seen.setPublicKey key) }
      (readTokens (.e :: rest) (key ++ tail) state).2 := by
    have ephemeral := @readEphemeral { state with patternIndex := state.patternIndex + 1 } seen
      (key ++ tail) held (by rw [List.length_append]; omega)
    rw [short] at ephemeral
    rw [readTokens, modify_bind, if_neg (by decide)]
    refine related_bind Settled.trans ?_ fun message after _ =>
      readTokens_settled rest message once after
    exact ⟨ephemeral.name, ephemeral.isInitiator, ephemeral.localKeyPair, ephemeral.localEphemeral,
      ephemeral.localHybrid, ephemeral.remotePublicKey, ephemeral.remoteEphemeral,
      ephemeral.remoteHybrid, ephemeral.requirements, ephemeral.preSharedKey, ephemeral.prologue⟩
  have body : Settled { state with remoteEphemeral := some (seen.setPublicKey key) }
      ((do
        let body ← readTokens (.e :: rest) (key ++ tail)
        decryptAndHash body space : Handshaking Bytes) state).2 :=
    related_bind Settled.trans tokens fun body after _ => decryptAndHash_settled body space after
  rw [readMessage, get_bind, if_neg (by rw [waiting]; decide), begins]
  cases ran : (do
      let body ← readTokens (.e :: rest) (key ++ tail)
      decryptAndHash body space : Handshaking Bytes) state with
  | mk outcome after =>
      rw [ran] at body
      cases outcome with
      | error e =>
          rw [failing, handle_error ran]
          exact ⟨⟨body.name, body.isInitiator, body.localKeyPair, body.localEphemeral,
            body.localHybrid, body.remotePublicKey, body.remoteEphemeral, body.remoteHybrid,
            body.requirements, body.preSharedKey, body.prologue⟩, Or.inl rfl⟩
      | ok payload =>
          rw [failing, handle_ok ran]
          obtain ⟨message, middle, read, decrypted⟩ := bind_eq_ok ran
          obtain ⟨_, _, rfl⟩ := within_inverted decrypted
          have action := readTokens_action _ read
          exact ⟨body, Or.inr action⟩

end FirstMessage

/-! ## Starting over -/

section StartingOver

variable {crypto : Crypto} {patternName : String} {newPattern : Pattern}
  {newSymmetric : SymmetricState} {state : HandshakeState}

/-- What `fallback` checks of a pattern that it can fall back to. -/
structure CanFallBack (crypto : Crypto) (patternName : String) (newPattern : Pattern)
    (newSymmetric : SymmetricState) (state : HandshakeState) : Prop where
  possible : state.requires fallbackPossible = true
  found : lookup patternName = some newPattern
  reuses : newPattern.flags &&& flagRemoteEphemReq ≠ 0
  waits : state.action = .failed ∨
    state.action = if state.isInitiator then .readMessage else .writeMessage
  symmetric : fallbackSymmetric crypto state.symmetric.name patternName = .ok newSymmetric

theorem fallback_eq (key : DHState)
    (can : CanFallBack crypto patternName newPattern newSymmetric state)
    (ephemeral : (if state.isInitiator then state.localEphemeral else state.remoteEphemeral) =
      some key)
    (sent : key.hasPublicKey = true) :
    fallback crypto patternName state =
      (.ok (), if state.isInitiator then becomeResponder newPattern newSymmetric state
        else becomeInitiator newPattern newSymmetric state) := by
  have possible := can.possible
  rw [requires, bne_iff_ne] at possible
  have waits : ¬(state.action ≠ .failed ∧
      state.action ≠ if state.isInitiator then Action.readMessage else .writeMessage) :=
    fun neither => can.waits.elim neither.1 neither.2
  rw [fallback, get_bind, if_neg possible, can.found]
  simp only
  rw [if_neg can.reuses, if_neg waits, ephemeral]
  simp only
  rw [sent, if_neg (by decide), can.symmetric]
  simp only
  rw [modify_apply]
  split <;> rfl

end StartingOver

/-- What the two sides have once a first message has been written and an attempt to read it has
been made; nothing is said of the symmetric states. -/
structure HalfWay (suite : Suite) (psk : Bool) (initiator responder : HandshakeState) : Prop where
  role : initiator.isInitiator = true
  role' : responder.isInitiator = false
  keyPair : ∃ own, initiator.localKeyPair = some own ∧ own.IsKeyPair ∧
    own.algorithm = suite.algorithm .static
  keyPair' : ∃ own, responder.localKeyPair = some own ∧ own.IsKeyPair ∧
    own.algorithm = suite.algorithm .static
  ephemeral : ∃ own seen, initiator.localEphemeral = some own ∧ own.IsKeyPair ∧
    own.algorithm = suite.algorithm .ephemeral ∧ responder.remoteEphemeral = some seen ∧
    seen.algorithm = suite.algorithm .ephemeral ∧ seen.publicKey = own.publicKey ∧
    seen.hasPublicKey = true
  answer : ∃ own seen, responder.localEphemeral = some own ∧
    own.algorithm = suite.algorithm .ephemeral ∧ initiator.remoteEphemeral = some seen ∧
    seen.algorithm = suite.algorithm .ephemeral
  remote : initiator.remotePublicKey.map DHState.algorithm = some (suite.algorithm .static)
  remote' : responder.remotePublicKey.map DHState.algorithm = some (suite.algorithm .static)
  localHybrid : initiator.localHybrid = none
  remoteHybrid : responder.remoteHybrid = none
  usesPsk : initiator.preSharedKey.isSome = psk
  preSharedKey : responder.preSharedKey = initiator.preSharedKey
  prologue : responder.prologue.getD [] = initiator.prologue.getD []

/-- What `XXfallback` asks for, whichever side one is on. -/
theorem fallback_requirements {protocolName : String} {psk : Bool}
    (uses : psk = ((splitName protocolName).getD 0 "" == "NoisePSK")) (role : Role) :
    Requirements (fallbackRequirements protocolName (flagsOf noisePatternXXfallback role))
      true false false true psk := by
  have found : lookup "XXfallback" = some noisePatternXXfallback := rfl
  have bits := computeRequirements_bits (flagsOf_flagged found role)
    ((splitName protocolName).getD 0 "") true (Or.inl rfl)
  rw [UInt32.zero_or, ← uses] at bits
  rw [fallbackRequirements]
  cases role with
  | initiator => exact bits
  | responder => exact bits

section Restart

variable {suite : Suite} {psk : Bool} {initiator responder : HandshakeState}
  {symmetric : SymmetricState}

theorem clearKey_map {key : Option DHState} {algorithm : DHAlgorithm}
    (there : key.map DHState.algorithm = some algorithm) :
    key.map DHState.clearKey = some (DHState.new algorithm) := by
  obtain ⟨dh, rfl, rfl⟩ := Option.map_eq_some_iff.mp there
  rfl

/-- The side that is going to answer. -/
theorem becomeInitiator_start (half : HalfWay suite psk initiator responder)
    (requirements : Requirements
      (becomeInitiator noisePatternXXfallback symmetric responder).requirements
      true false false true psk) :
    CanStart (becomeInitiator noisePatternXXfallback symmetric responder) := by
  obtain ⟨own, held, pair, _⟩ := half.keyPair'
  obtain ⟨_, seen, _, _, _, copied, _⟩ := half.ephemeral
  constructor
  · rfl
  · exact fun _ => requirements.fallbackPremsg
  · intro _
    show hasPrivateKey responder.localKeyPair = true
    rw [held]
    show (own.mode == .keyPair) = true
    rw [pair.mode]
    rfl
  · intro needed
    exact absurd (requirements.remoteRequired.symm.trans needed) Bool.false_ne_true
  · intro needed
    have used := requirements.pskRequired.symm.trans needed
    show responder.preSharedKey.isSome = true
    rw [half.preSharedKey, half.usesPsk, used]
  · intro needed
    exact absurd (requirements.localPremsg.symm.trans needed) Bool.false_ne_true
  · intro needed
    exact absurd (requirements.remotePremsg.symm.trans needed) Bool.false_ne_true
  · intro _
    show responder.remoteEphemeral.isSome = true
    rw [copied]
    rfl

theorem becomeResponder_start (half : HalfWay suite psk initiator responder)
    (requirements : Requirements
      (becomeResponder noisePatternXXfallback symmetric initiator).requirements
      true false false true psk) :
    CanStart (becomeResponder noisePatternXXfallback symmetric initiator) := by
  obtain ⟨own, held, pair, _⟩ := half.keyPair
  obtain ⟨ephemeral, _, kept, _⟩ := half.ephemeral
  constructor
  · rfl
  · exact fun _ => requirements.fallbackPremsg
  · intro _
    show hasPrivateKey initiator.localKeyPair = true
    rw [held]
    show (own.mode == .keyPair) = true
    rw [pair.mode]
    rfl
  · intro needed
    exact absurd (requirements.remoteRequired.symm.trans needed) Bool.false_ne_true
  · intro needed
    have used := requirements.pskRequired.symm.trans needed
    show initiator.preSharedKey.isSome = true
    rw [half.usesPsk, used]
  · intro needed
    exact absurd (requirements.localPremsg.symm.trans needed) Bool.false_ne_true
  · intro needed
    exact absurd (requirements.remotePremsg.symm.trans needed) Bool.false_ne_true
  · intro _
    show initiator.localEphemeral.isSome = true
    rw [kept]
    rfl

/-- Without static keys before the first message, the ephemeral key is all that is hashed. -/
theorem premessages_fallback {state : HandshakeState} {ephemeral : DHState}
    (requirements : Requirements state.requirements true false false true psk)
    (key : (if state.isInitiator then state.remoteEphemeral else state.localEphemeral) =
      some ephemeral)
    (plain : (if state.isInitiator then state.remoteHybrid else state.localHybrid) = none)
    (symmetric : SymmetricState) :
    state.premessages symmetric =
      symmetric.mixReused state.preSharedKey.isSome (some (ephemeral.publicKey, none)) := by
  have own : state.requires localPremsg = false := requirements.localPremsg
  have other : state.requires remotePremsg = false := requirements.remotePremsg
  have reused : state.requires fallbackPremsg = true := requirements.fallbackPremsg
  rw [premessages, premessage, premessage, reusedKeys, reusedKeys, own, other, reused]
  cases role : state.isInitiator with
  | true =>
      rw [role] at key plain
      rw [if_pos rfl] at key plain
      rw [key, plain]
      rfl
  | false =>
      rw [role] at key plain
      rw [if_neg Bool.false_ne_true] at key plain
      rw [key, plain]
      rfl

/-- What both sides have hashed when they start over. -/
def restarted (symmetric : SymmetricState) (prologue : Bytes) (psk : Option Bytes)
    (ephemeral : Bytes) : SymmetricState :=
  ((symmetric.mixHash prologue).mixOptionalKey psk).mixReused psk.isSome (some (ephemeral, none))

theorem restarted_cipher (symmetric : SymmetricState) (prologue : Bytes) (psk : Option Bytes)
    (ephemeral : Bytes) :
    (restarted symmetric prologue psk ephemeral).cipher.algorithm = symmetric.cipher.algorithm ∧
      (restarted symmetric prologue psk ephemeral).cipher.nonce ≤ symmetric.cipher.nonce := by
  cases psk with
  | none => exact ⟨rfl, le_refl _⟩
  | some key => exact ⟨rfl, Nat.zero_le _⟩

def restartedWriter (symmetric : SymmetricState) (responder : HandshakeState) : HandshakeState :=
  { becomeInitiator noisePatternXXfallback symmetric responder with action := .writeMessage }

def restartedReader (symmetric : SymmetricState) (initiator : HandshakeState) : HandshakeState :=
  { becomeResponder noisePatternXXfallback symmetric initiator with action := .readMessage }

theorem fallback_known :
    knownBefore noisePatternXXfallback.flags = [(false, .ephemeral)] := rfl

theorem fallback_owns {side : Bool} {slot : KeySlot}
    (owned : owns noisePatternXXfallback.flags side slot = true) :
    slot = .static ∨ slot = .ephemeral := by
  cases slot with
  | static => exact Or.inl rfl
  | ephemeral => exact Or.inr rfl
  | hybrid => cases side <;> exact absurd owned (by decide)

/-- The initiator's ephemeral key is all that is known. -/
theorem restart_linked (half : HalfWay suite psk initiator responder) (symmetric : SymmetricState) :
    Linked suite (knownBefore noisePatternXXfallback.flags) (restartedWriter symmetric responder)
      (restartedReader symmetric initiator) := by
  obtain ⟨ephemeral, seen, kept, ephemeralPair, ephemeralCurve, copied, seenCurve, same, _⟩ :=
    half.ephemeral
  obtain ⟨answer, answerSeen, answerHeld, answerCurve, answerThere, answerSeenCurve⟩ := half.answer
  obtain ⟨own, held, pair, curve⟩ := half.keyPair
  obtain ⟨own', held', pair', curve'⟩ := half.keyPair'
  have remote : (restartedReader symmetric initiator).remotePublicKey = _ :=
    clearKey_map half.remote
  have remote' : (restartedWriter symmetric responder).remotePublicKey = _ :=
    clearKey_map half.remote'
  have answered : (restartedWriter symmetric responder).localEphemeral =
      some (DHState.new (suite.algorithm .ephemeral)) := by
    refine clearKey_map ?_
    rw [answerHeld, ← answerCurve]
    rfl
  have expected : (restartedReader symmetric initiator).remoteEphemeral =
      some (DHState.new (suite.algorithm .ephemeral)) := by
    refine clearKey_map ?_
    rw [answerThere, ← answerSeenCurve]
    rfl
  exact
    { symmetric := rfl
      role := rfl
      pattern := rfl
      index := rfl
      psk := half.preSharedKey.symm
      shows := by
        refine ⟨fun slot owned => ?_, fun slot sent => ?_⟩
        · rcases fallback_owns owned with rfl | rfl
          · exact ⟨own', _, ⟨held', remote, curve', rfl⟩, fun _ => pair'⟩
          · exact ⟨_, _, ⟨answered, expected, rfl, rfl⟩, nofun⟩
        · rw [fallback_known] at sent
          cases List.mem_singleton.mp sent
      shown := by
        refine ⟨fun slot owned => ?_, fun slot sent => ?_⟩
        · rcases fallback_owns owned with rfl | rfl
          · exact ⟨own, _, ⟨held, remote', curve, rfl⟩, fun _ => pair⟩
          · exact ⟨ephemeral, seen, ⟨kept, copied, ephemeralCurve, seenCurve⟩, nofun⟩
        · rw [fallback_known] at sent
          cases List.mem_singleton.mp sent
          exact ⟨ephemeral, seen, ⟨kept, copied, ephemeralCurve, seenCurve⟩, ephemeralPair, same⟩ }

/-- The side that has read the first message writes the next one. -/
theorem restart_turn (half : HalfWay suite psk initiator responder)
    (requirements : Requirements
      (becomeResponder noisePatternXXfallback symmetric initiator).requirements
      true false false true psk)
    (requirements' : Requirements
      (becomeInitiator noisePatternXXfallback symmetric responder).requirements
      true false false true psk)
    (decrypts : symmetric.cipher.algorithm.Decrypts) (unused : symmetric.cipher.nonce = 0) :
    ∃ writer reader,
      start (becomeInitiator noisePatternXXfallback symmetric responder) = (.ok (), writer) ∧
      start (becomeResponder noisePatternXXfallback symmetric initiator) = (.ok (), reader) ∧
      Turn suite writer reader ∧ writer.remaining = noisePatternXXfallback.tokens := by
  obtain ⟨ephemeral, seen, kept, _, _, copied, _, same, _⟩ := half.ephemeral
  obtain ⟨hashed, hashed_eq⟩ : ∃ hashed, restarted symmetric (initiator.prologue.getD [])
      initiator.preSharedKey ephemeral.publicKey = hashed := ⟨_, rfl⟩
  have writes := start_eq (becomeInitiator_start half requirements')
  have reads := start_eq (becomeResponder_start half requirements)
  have written : (becomeInitiator noisePatternXXfallback symmetric responder).started = hashed := by
    have order := premessages_fallback requirements' copied half.remoteHybrid
    rw [started, order]
    show (((symmetric.mixHash (responder.prologue.getD [])).mixOptionalKey
      responder.preSharedKey).mixReused responder.preSharedKey.isSome
        (some (seen.publicKey, none))) = hashed
    rw [same, half.prologue, half.preSharedKey]
    exact hashed_eq
  have read : (becomeResponder noisePatternXXfallback symmetric initiator).started = hashed := by
    have order := premessages_fallback requirements kept half.localHybrid
    rw [started, order]
    exact hashed_eq
  rw [written] at writes
  rw [read] at reads
  have cipher := restarted_cipher symmetric (initiator.prologue.getD []) initiator.preSharedKey
    ephemeral.publicKey
  rw [hashed_eq, unused] at cipher
  have ready : readyFrom noisePatternXXfallback.flags noisePatternXXfallback.tokens true
      (knownBefore noisePatternXXfallback.flags) = true := by decide
  refine ⟨restartedWriter hashed responder, restartedReader hashed initiator, writes, reads,
    ⟨⟨_, restart_linked half hashed, ready⟩, rfl, rfl, ?_, ?_⟩, rfl⟩
  · show hashed.cipher.algorithm.Decrypts
    rw [cipher.1]
    exact decrypts
  · show hashed.cipher.nonce + noisePatternXXfallback.tokens.length < lastNonce
    have short : noisePatternXXfallback.tokens.length = 7 := rfl
    rw [short, lastNonce]
    omega

end Restart

/-! ## From a first message to a session -/

/-- The patterns whose sides have the keys of `XXfallback`. -/
def fallbackStarts : List Pattern :=
  [noisePatternXK, noisePatternKK, noisePatternIK, noisePatternIKnoidh]

/-- What such a pattern starts with and which keys it has. -/
structure FallsBack (pattern : Pattern) : Prop where
  first : ∃ rest, pattern.tokens = .e :: rest ∧ Token.e ∉ thisMessage rest ∧
    (afterMessage rest).isSome = true
  static : ∀ side, owns pattern.flags side .static = true
  ephemeral : ∀ side, owns pattern.flags side .ephemeral = true
  plain : ∀ side, owns pattern.flags side .hybrid = false
  ready : pattern.ready = true
  ordinary : pattern.flags &&& flagRemoteEphemReq = 0

theorem fallbackStarts_fallsBack {pattern : Pattern} (starts : pattern ∈ fallbackStarts) :
    FallsBack pattern := by
  simp only [fallbackStarts, List.mem_cons, List.not_mem_nil, or_false] at starts
  rcases starts with rfl | rfl | rfl | rfl <;>
    exact ⟨⟨_, rfl, by decide, rfl⟩, by decide, by decide, by decide, by decide, by decide⟩

theorem fallbackStarts_possible : ∀ entry ∈ patterns, entry.2 ∈ fallbackStarts →
    (extraReqs entry.2 entry.1 != 0) = true := by
  decide

section FirstAttempt

variable {suite : Suite} {psk : Bool} {pattern : Pattern} {first second : Party}
  {initiator responder initiator' : HandshakeState} {random : Nat → Bytes}

/-- The keys such a pattern starts with. -/
structure StartKeys (suite : Suite) (party : Party) (state : HandshakeState) : Prop where
  localKeyPair : state.localKeyPair = some (ownKey suite party .static)
  localEphemeral : state.localEphemeral = some (DHState.new (suite.algorithm .ephemeral))
  localHybrid : state.localHybrid = none
  remotePublicKey : state.remotePublicKey = some (seenKey suite party .static)
  remoteEphemeral : state.remoteEphemeral = some (DHState.new (suite.algorithm .ephemeral))
  remoteHybrid : state.remoteHybrid = none

theorem IsPrepared.startKeys {side : Bool} {party : Party} {state : HandshakeState}
    (fallsBack : FallsBack pattern) (prepared : IsPrepared suite pattern side party state) :
    StartKeys suite party state where
  localKeyPair := (prepared.localKey .static).trans (if_pos (fallsBack.static side))
  localEphemeral := (prepared.localKey .ephemeral).trans (if_pos (fallsBack.ephemeral side))
  localHybrid := (prepared.localKey .hybrid).trans (if_neg (by rw [fallsBack.plain side]; decide))
  remotePublicKey := (prepared.remoteKey .static).trans (if_pos (fallsBack.static !side))
  remoteEphemeral := (prepared.remoteKey .ephemeral).trans (if_pos (fallsBack.ephemeral !side))
  remoteHybrid :=
    (prepared.remoteKey .hybrid).trans (if_neg (by rw [fallsBack.plain !side]; decide))

theorem ownKey_isKeyPair {party : Party} (given : party.staticKey.isSome = true) :
    (ownKey suite party .static).IsKeyPair := by
  obtain ⟨key, given⟩ := Option.isSome_iff_exists.mp given
  rw [ownKey, given]
  exact DHState.setPrivateKey_isKeyPair _ key

/-- What is left of the preparation after a first message. -/
structure Attempted (state after : HandshakeState) : Prop where
  name : after.symmetric.name = state.symmetric.name
  requirements : after.requirements = state.requirements
  isInitiator : after.isInitiator = state.isInitiator
  waits : after.action = .failed ∨
    after.action = if after.isInitiator then .readMessage else .writeMessage

/-- The two sides after the first message, whether it could be read or not. -/
theorem halfWay_of_first (fallsBack : FallsBack pattern)
    (prepared : IsPrepared suite pattern true first initiator)
    (prepared' : IsPrepared suite pattern false second responder)
    (static : first.staticKey.isSome = true) (static' : second.staticKey.isSome = true)
    (usesPsk : first.psk.isSome = psk) (preSharedKey : second.psk = first.psk)
    (prologue : second.prologue.getD [] = first.prologue.getD [])
    {size messageOffset : Nat} {payload : Option Bytes} {message : Bytes}
    (wrote : writeMessage random size messageOffset payload initiator =
      (.ok message, initiator')) (space : Nat) :
    HalfWay suite psk initiator' (readMessage message space responder).2 ∧
      Attempted initiator initiator' ∧
      Attempted responder (readMessage message space responder).2 := by
  obtain ⟨rest, tokens, once, more⟩ := fallsBack.first
  have begins : initiator.remaining = .e :: rest := by
    rw [remaining, prepared.pattern, prepared.patternIndex, tokens]
    rfl
  have begins' : responder.remaining = .e :: rest := by
    rw [remaining, prepared'.pattern, prepared'.patternIndex, tokens]
    rfl
  have keys := prepared.startKeys fallsBack
  have keys' := prepared'.startKeys fallsBack
  obtain ⟨tail, rfl, kept, waits⟩ := writeMessage_first begins once keys.localEphemeral wrote
  rw [if_pos more] at waits
  obtain ⟨own, own_eq⟩ : ∃ own, (DHState.new (suite.algorithm .ephemeral)).generateKeyPair
      (random initiator.patternIndex) = own := ⟨_, rfl⟩
  have pair : own.IsKeyPair := own_eq ▸ DHState.setPrivateKey_isKeyPair _ _
  have curve : own.algorithm = suite.algorithm .ephemeral := own_eq ▸ rfl
  have length : own.publicKey.length = (suite.algorithm .ephemeral).keyLength := by
    rw [pair.publicKey, own.algorithm.eval_length, curve]
  rw [own_eq] at kept ⊢
  obtain ⟨read, outcome⟩ := readMessage_first tail space prepared'.action begins' once
    keys'.remoteEphemeral length
  rw [if_pos more] at outcome
  have role : initiator'.isInitiator = true := kept.isInitiator.trans prepared.isInitiator
  have role' : (readMessage (own.publicKey ++ tail) space responder).2.isInitiator = false :=
    read.isInitiator.trans prepared'.isInitiator
  refine ⟨?_, ⟨kept.name, kept.requirements, kept.isInitiator, Or.inr ?_⟩,
    ⟨read.name, read.requirements, read.isInitiator, ?_⟩⟩
  · exact
      { role := role
        role' := role'
        keyPair := ⟨_, kept.localKeyPair.trans keys.localKeyPair, ownKey_isKeyPair static,
          ownKey_algorithm first .static⟩
        keyPair' := ⟨_, read.localKeyPair.trans keys'.localKeyPair, ownKey_isKeyPair static',
          ownKey_algorithm second .static⟩
        ephemeral := ⟨own, _, kept.localEphemeral, pair, curve, read.remoteEphemeral, rfl,
          List.take_of_length_le length.le, rfl⟩
        answer := ⟨_, _, read.localEphemeral.trans keys'.localEphemeral, rfl,
          kept.remoteEphemeral.trans keys.remoteEphemeral, rfl⟩
        remote := by
          refine kept.remotePublicKey.trans ?_
          show initiator.remotePublicKey.map DHState.algorithm = _
          rw [keys.remotePublicKey, Option.map_some, seenKey_algorithm]
        remote' := by
          refine read.remotePublicKey.trans ?_
          show responder.remotePublicKey.map DHState.algorithm = _
          rw [keys'.remotePublicKey, Option.map_some, seenKey_algorithm]
        localHybrid := kept.localHybrid keys.localHybrid
        remoteHybrid := read.remoteHybrid keys'.remoteHybrid
        usesPsk := by
          rw [kept.preSharedKey]
          show initiator.preSharedKey.isSome = psk
          rw [prepared.preSharedKey, usesPsk]
        preSharedKey := by
          rw [kept.preSharedKey, read.preSharedKey]
          show responder.preSharedKey = initiator.preSharedKey
          rw [prepared.preSharedKey, prepared'.preSharedKey, preSharedKey]
        prologue := by
          rw [kept.prologue, read.prologue]
          show responder.prologue.getD [] = initiator.prologue.getD []
          rw [prepared.prologue, prepared'.prologue, prologue] }
  · rw [waits, role]
    rfl
  · rw [role']
    exact outcome

end FirstAttempt

theorem started_name (state : HandshakeState) : state.started.name = state.symmetric.name := by
  have mixed (symmetric : SymmetricState) (key : Option Bytes) :
      (symmetric.mixOptional key).name = symmetric.name := by
    cases key <;> rfl
  have reused (symmetric : SymmetricState) (psk : Bool) (keys : Option (Bytes × Option Bytes)) :
      (symmetric.mixReused psk keys).name = symmetric.name := by
    rcases keys with _ | ⟨ephemeral, _ | hybrid⟩ <;> cases psk <;> rfl
  have secret (symmetric : SymmetricState) (key : Option Bytes) :
      (symmetric.mixOptionalKey key).name = symmetric.name := by
    cases key <;> rfl
  rw [started, premessages]
  split
  · rw [mixed, reused, mixed, secret]
    rfl
  · rw [mixed, reused, mixed, secret]
    rfl

/-- The cipher and the hash are those of the first protocol. -/
theorem Named.fallbackSymmetric {crypto : Crypto} {protocolName dh : String} {psk : Bool}
    {pattern : Pattern} {symmetric : SymmetricState}
    (named : Named crypto protocolName dh psk pattern symmetric) (patternName : String) :
    ∃ newSymmetric, fallbackSymmetric crypto protocolName patternName = .ok newSymmetric := by
  obtain ⟨protocolPrefix, patternId, cipher, hash, components, _, _, built⟩ := named.components
  rw [SymmetricState.new] at built
  obtain ⟨algorithm, chosen, built⟩ := bind_eq_ok built
  obtain ⟨digest, chosen', _⟩ := bind_eq_ok built
  rw [HandshakeState.fallbackSymmetric, components]
  simp only [List.set_cons_succ, List.set_cons_zero, List.getD_cons_succ, List.getD_cons_zero]
  rw [SymmetricState.new, chosen, chosen']
  exact ⟨_, rfl⟩

theorem Named.name {crypto : Crypto} {protocolName dh : String} {psk : Bool} {pattern : Pattern}
    {symmetric : SymmetricState} (named : Named crypto protocolName dh psk pattern symmetric) :
    symmetric.name = protocolName := by
  obtain ⟨_, _, _, _, _, _, _, built⟩ := named.components
  rw [SymmetricState.new] at built
  obtain ⟨_, _, built⟩ := bind_eq_ok built
  obtain ⟨_, _, built⟩ := bind_eq_ok built
  cases built
  rfl

/-- What both sides do before they start over. -/
def restart (crypto : Crypto) : Handshaking Unit := do
  fallback crypto "XXfallback"
  start

end Conclave.NoiseProtocol
