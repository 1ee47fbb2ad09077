import ConclaveFormal.Lib.HashChain
import ConclaveFormal.NoiseProtocol.Fallback

/-!
# What is hashed on the way

Every token, every message and the start of a handshake add parts to the chain of
hashes: the keys and the payload of a message as they are on the wire, so the
parts of a message make up the whole of it.
-/

set_option autoImplicit false

namespace Conclave.NoiseProtocol

open Conclave.Lib Attempt Pattern HandshakeState

/-! ## What tokens absorb -/

/-- Only keys and the symmetric state have changed, and `pieces` have been hashed. -/
structure Absorbed (pieces : List Bytes) (state after : HandshakeState) : Prop where
  keeps : Keeps state after
  requirements : after.requirements = state.requirements
  prologue : after.prologue = state.prologue
  hash : after.symmetric.hash = state.symmetric.hash
  h : after.symmetric.h = absorb state.symmetric.hash.digest state.symmetric.h pieces

theorem Absorbed.trans {pieces more : List Bytes} {first second third : HandshakeState}
    (before : Absorbed pieces first second) (after : Absorbed more second third) :
    Absorbed (pieces ++ more) first third where
  keeps :=
    ⟨after.keeps.isInitiator.trans before.keeps.isInitiator,
      after.keeps.pattern.trans before.keeps.pattern,
      after.keeps.patternIndex.trans before.keeps.patternIndex,
      after.keeps.preSharedKey.trans before.keeps.preSharedKey,
      after.keeps.action.trans before.keeps.action⟩
  requirements := after.requirements.trans before.requirements
  prologue := after.prologue.trans before.prologue
  hash := after.hash.trans before.hash
  h := by rw [absorb_append, ← before.h, ← before.hash]; exact after.h

/-- A key that has been received is not part of what is hashed. -/
theorem Absorbed.received {pieces : List Bytes} {state middle after : HandshakeState}
    (absorbed : Absorbed pieces state middle) (keeps : Keeps middle after)
    (requirements : after.requirements = middle.requirements)
    (prologue : after.prologue = middle.prologue) (symmetric : after.symmetric = middle.symmetric) :
    Absorbed pieces state after := by
  have more : Absorbed [] middle after :=
    ⟨keeps, requirements, prologue, by rw [symmetric], by rw [symmetric]; rfl⟩
  rw [← List.append_nil pieces]
  exact absorbed.trans more

theorem mixDH_absorbs {localKey remoteKey : Option DHState} {state after : HandshakeState}
    (ran : mixDH localKey remoteKey state = (.ok (), after)) : Absorbed [] state after := by
  cases localKey with
  | none => cases ran
  | some localKey =>
      cases remoteKey with
      | none => cases ran
      | some remoteKey =>
          rw [mixDH] at ran
          cases calculated : localKey.calculate remoteKey with
          | error e =>
              rw [calculated] at ran
              cases ran
          | ok shared =>
              rw [calculated] at ran
              cases ran
              exact ⟨⟨rfl, rfl, rfl, rfl, rfl⟩, rfl, rfl, rfl, rfl⟩

theorem mixToken_absorbs {token : Token} {state after : HandshakeState}
    (ran : mixToken token state = (.ok (), after)) : Absorbed [] state after := by
  cases mixes : token.mixed with
  | some pair =>
      rw [mixToken_eq mixes] at ran
      exact mixDH_absorbs ran
  | none =>
      have nothing : mixToken token state = (.ok (), state) := by
        cases token <;> first | rfl | cases mixes
      rw [nothing] at ran
      cases ran
      exact ⟨Keeps.refl state, rfl, rfl, rfl, rfl⟩

theorem encryptAndHash_absorbs {plaintext ciphertext : Bytes} {space : Nat}
    {state after : HandshakeState}
    (ran : encryptAndHash plaintext space state = (.ok ciphertext, after)) :
    Absorbed [ciphertext] state after := by
  obtain ⟨symmetric, inner, rfl⟩ := within_inverted ran
  rw [SymmetricState.encryptAndHash, get_bind] at inner
  obtain ⟨written, middle, encrypted, inner⟩ := bind_eq_ok inner
  obtain ⟨cipher, _, rfl⟩ := within_inverted encrypted
  rw [modify_bind] at inner
  cases inner
  exact ⟨⟨rfl, rfl, rfl, rfl, rfl⟩, rfl, rfl, rfl, rfl⟩

theorem decryptAndHash_absorbs {plaintext ciphertext : Bytes} {space : Nat}
    {state after : HandshakeState}
    (ran : decryptAndHash ciphertext space state = (.ok plaintext, after)) :
    Absorbed [ciphertext] state after := by
  obtain ⟨symmetric, inner, rfl⟩ := within_inverted ran
  rw [SymmetricState.decryptAndHash, get_bind, modify_bind] at inner
  obtain ⟨cipher, _, rfl⟩ := within_inverted inner
  exact ⟨⟨rfl, rfl, rfl, rfl, rfl⟩, rfl, rfl, rfl, rfl⟩

/-- The number of keys a token sends. -/
def Token.keys (token : Token) : Nat := if token.sent.isSome then 1 else 0

theorem writeToken_absorbs {random chunk : Bytes} {space : Nat} {token : Token}
    {state after : HandshakeState}
    (ran : writeToken random space token state = (.ok chunk, after)) :
    ∃ pieces : List Bytes, pieces.flatten = chunk ∧ pieces.length = token.keys ∧
      Absorbed pieces state after := by
  cases sent : token.sent with
  | none =>
      have mixing : writeToken random space token state =
          (mixToken token >>= fun _ => pure []) state := by
        cases token <;> first | rfl | cases sent
      rw [mixing] at ran
      obtain ⟨_, middle, mixed, ran⟩ := bind_eq_ok ran
      cases ran
      exact ⟨[], rfl, by rw [Token.keys, sent]; rfl, mixToken_absorbs mixed⟩
  | some slot =>
      refine ⟨[chunk], List.flatten_singleton .., by rw [Token.keys, sent]; rfl, ?_⟩
      rw [writeToken, get_bind] at ran
      cases token with
      | e =>
          cases held : state.localEphemeral with
          | none =>
              simp only [held] at ran
              cases ran
          | some own =>
              simp only [held] at ran
              rw [modify_bind] at ran
              split at ran
              · cases ran
              · rw [onSymmetric, modify_bind] at ran
                split at ran
                all_goals
                  cases ran
                  exact ⟨⟨rfl, rfl, rfl, rfl, rfl⟩, rfl, rfl, rfl, rfl⟩
      | s =>
          cases held : state.localKeyPair with
          | none =>
              simp only [held] at ran
              cases ran
          | some own =>
              simp only [held] at ran
              split at ran
              · cases ran
              · exact encryptAndHash_absorbs ran
      | f =>
          cases held : state.localHybrid with
          | none =>
              simp only [held] at ran
              cases ran
          | some own =>
              simp only [held] at ran
              rw [modify_bind] at ran
              split at ran
              · cases ran
              · have generated : Absorbed [] state
                    { state with localHybrid := some (own.generateKeyPair random) } :=
                  ⟨⟨rfl, rfl, rfl, rfl, rfl⟩, rfl, rfl, rfl, rfl⟩
                exact generated.trans (encryptAndHash_absorbs ran)
      | _ => cases sent

theorem readPublicKey_absorbs {remote read : DHState} {message rest : Bytes}
    {state after : HandshakeState}
    (ran : readPublicKey remote message state = (.ok (read, rest), after)) :
    ∃ chunk, message = chunk ++ rest ∧ Absorbed [chunk] state after := by
  rw [readPublicKey, get_bind] at ran
  split at ran
  · cases ran
  · obtain ⟨key, middle, decrypted, ran⟩ := bind_eq_ok ran
    split at ran
    · cases ran
    · cases ran
      exact ⟨_, (List.take_append_drop _ message).symm, decryptAndHash_absorbs decrypted⟩

theorem readToken_absorbs {message rest : Bytes} {token : Token} {state after : HandshakeState}
    (ran : readToken message token state = (.ok rest, after)) :
    ∃ pieces : List Bytes, message = pieces.flatten ++ rest ∧ pieces.length = token.keys ∧
      Absorbed pieces state after := by
  cases sent : token.sent with
  | none =>
      have mixing : readToken message token state =
          (mixToken token >>= fun _ => pure message) state := by
        cases token <;> first | rfl | cases sent
      rw [mixing] at ran
      obtain ⟨_, middle, mixed, ran⟩ := bind_eq_ok ran
      cases ran
      exact ⟨[], rfl, by rw [Token.keys, sent]; rfl, mixToken_absorbs mixed⟩
  | some slot =>
      obtain ⟨chunk, whole, absorbed⟩ :
          ∃ chunk, message = chunk ++ rest ∧ Absorbed [chunk] state after := by
        rw [readToken, get_bind] at ran
        cases token with
        | e =>
            cases held : state.remoteEphemeral with
            | none =>
                simp only [held] at ran
                cases ran
            | some remote =>
                simp only [held] at ran
                split at ran
                · cases ran
                · rw [onSymmetric, modify_bind, modify_bind] at ran
                  split at ran
                  · cases ran
                  · split at ran
                    all_goals
                      cases ran
                      exact ⟨_, (List.take_append_drop _ message).symm,
                        ⟨⟨rfl, rfl, rfl, rfl, rfl⟩, rfl, rfl, rfl, rfl⟩⟩
        | s =>
            cases held : state.remotePublicKey with
            | none =>
                simp only [held] at ran
                cases ran
            | some remote =>
                simp only [held] at ran
                obtain ⟨read, middle, got, ran⟩ := bind_eq_ok ran
                obtain ⟨chunk, whole, absorbed⟩ := readPublicKey_absorbs got
                cases ran
                exact ⟨chunk, whole, absorbed.received ⟨rfl, rfl, rfl, rfl, rfl⟩ rfl rfl rfl⟩
        | f =>
            cases held : state.remoteHybrid with
            | none =>
                simp only [held] at ran
                cases ran
            | some remote =>
                simp only [held] at ran
                obtain ⟨read, middle, got, ran⟩ := bind_eq_ok ran
                obtain ⟨chunk, whole, absorbed⟩ := readPublicKey_absorbs got
                cases ran
                exact ⟨chunk, whole, absorbed.received ⟨rfl, rfl, rfl, rfl, rfl⟩ rfl rfl rfl⟩
        | _ => cases sent
      exact ⟨[chunk], by rw [whole, List.flatten_singleton], by rw [Token.keys, sent]; rfl,
        absorbed⟩

/-! ## What messages absorb -/

/-- The number of keys in one message. -/
def messageKeys : List Token → Nat
  | [] => 0
  | token :: tokens => if token = .flipDir then 0 else token.keys + messageKeys tokens

/-- A side after a message that `tokens` began with; `next` is what it does if it goes on. -/
structure Walks (tokens : List Token) (next : Action) (pieces : List Bytes)
    (state after : HandshakeState) : Prop where
  isInitiator : after.isInitiator = state.isInitiator
  pattern : after.pattern = state.pattern
  preSharedKey : after.preSharedKey = state.preSharedKey
  requirements : after.requirements = state.requirements
  prologue : after.prologue = state.prologue
  hash : after.symmetric.hash = state.symmetric.hash
  h : after.symmetric.h = absorb state.symmetric.hash.digest state.symmetric.h pieces
  action : after.action = if (afterMessage tokens).isSome then next else .split
  index : after.patternIndex + ((afterMessage tokens).getD []).length =
    state.patternIndex + tokens.length

namespace Walks

variable {tokens : List Token} {next : Action} {pieces more : List Bytes}
  {state middle after : HandshakeState}

theorem nil (state : HandshakeState) :
    Walks [] next [] state { state with action := .split } :=
  ⟨rfl, rfl, rfl, rfl, rfl, rfl, rfl, rfl, rfl⟩

theorem flip (state : HandshakeState) :
    Walks (.flipDir :: tokens) next [] state
      { state with patternIndex := state.patternIndex + 1, action := next } := by
  have rest : afterMessage (.flipDir :: tokens) = some tokens := rfl
  refine ⟨rfl, rfl, rfl, rfl, rfl, rfl, rfl, by rw [rest]; rfl, ?_⟩
  rw [rest, Option.getD_some, List.length_cons, Nat.add_assoc, Nat.add_comm 1]

/-- One token and then the rest of the message. -/
theorem cons {token : Token} (stays : token ≠ .flipDir)
    (absorbed : Absorbed pieces { state with patternIndex := state.patternIndex + 1 } middle)
    (walks : Walks tokens next more middle after) :
    Walks (token :: tokens) next (pieces ++ more) state after where
  isInitiator := walks.isInitiator.trans absorbed.keeps.isInitiator
  pattern := walks.pattern.trans absorbed.keeps.pattern
  preSharedKey := walks.preSharedKey.trans absorbed.keeps.preSharedKey
  requirements := walks.requirements.trans absorbed.requirements
  prologue := walks.prologue.trans absorbed.prologue
  hash := walks.hash.trans absorbed.hash
  h := by
    rw [absorb_append]
    have first : middle.symmetric.h = absorb state.symmetric.hash.digest state.symmetric.h pieces :=
      absorbed.h
    have same : middle.symmetric.hash = state.symmetric.hash := absorbed.hash
    rw [← first, ← same]
    exact walks.h
  action := by
    rw [afterMessage, if_neg stays]
    exact walks.action
  index := by
    have place : middle.patternIndex = state.patternIndex + 1 := absorbed.keeps.patternIndex
    have index := walks.index
    rw [afterMessage, if_neg stays, List.length_cons]
    omega

theorem payload (walks : Walks tokens next pieces state middle)
    (absorbed : Absorbed more middle after) :
    Walks tokens next (pieces ++ more) state after where
  isInitiator := absorbed.keeps.isInitiator.trans walks.isInitiator
  pattern := absorbed.keeps.pattern.trans walks.pattern
  preSharedKey := absorbed.keeps.preSharedKey.trans walks.preSharedKey
  requirements := absorbed.requirements.trans walks.requirements
  prologue := absorbed.prologue.trans walks.prologue
  hash := absorbed.hash.trans walks.hash
  h := by
    rw [absorb_append, ← walks.h, ← walks.hash]
    exact absorbed.h
  action := absorbed.keeps.action.trans walks.action
  index := by rw [absorbed.keeps.patternIndex]; exact walks.index

/-- What is left of the pattern. -/
theorem remaining (walks : Walks state.remaining next pieces state after) :
    after.remaining = (afterMessage state.remaining).getD [] := by
  have index := walks.index
  have length : state.remaining.length = state.pattern.tokens.length - state.patternIndex :=
    List.length_drop
  rw [HandshakeState.remaining, walks.pattern]
  cases left : afterMessage state.remaining with
  | none =>
      rw [left, Option.getD_none, List.length_nil] at index
      rw [Option.getD_none]
      exact List.drop_of_length_le (by omega)
  | some rest =>
      obtain ⟨before, whole⟩ := afterMessage_suffix left
      rw [left, Option.getD_some] at index
      have sizes := congrArg List.length whole
      rw [List.length_append] at sizes
      have place : after.patternIndex = state.patternIndex + before.length := by omega
      rw [Option.getD_some, place, ← List.drop_drop]
      show state.remaining.drop before.length = rest
      rw [whole, List.drop_left]

end Walks

theorem writeTokens_walks {random : Nat → Bytes} (tokens : List Token) :
    ∀ {space : Nat} {keys : Bytes} {state after : HandshakeState},
      writeTokens random tokens space state = (.ok keys, after) →
      ∃ pieces : List Bytes, pieces.flatten = keys ∧ pieces.length = messageKeys tokens ∧
        Walks tokens .readMessage pieces state after := by
  induction tokens with
  | nil =>
      intro space keys state after ran
      cases ran
      exact ⟨[], rfl, rfl, Walks.nil state⟩
  | cons token tokens ih =>
      intro space keys state after ran
      rw [writeTokens, get_bind, modify_bind] at ran
      rw [messageKeys]
      by_cases flips : token = .flipDir
      · subst flips
        cases ran
        exact ⟨[], rfl, rfl, Walks.flip state⟩
      · rw [if_neg flips] at ran ⊢
        obtain ⟨chunk, middle, wrote, ran⟩ := bind_eq_ok ran
        obtain ⟨rest, last, later, ran⟩ := bind_eq_ok ran
        cases ran
        obtain ⟨pieces, rfl, count, absorbed⟩ := writeToken_absorbs wrote
        obtain ⟨more, rfl, count', walks⟩ := ih later
        exact ⟨pieces ++ more, List.flatten_append, by rw [List.length_append, count, count'],
          walks.cons flips absorbed⟩

theorem readTokens_walks (tokens : List Token) :
    ∀ {message body : Bytes} {state after : HandshakeState},
      readTokens tokens message state = (.ok body, after) →
      ∃ pieces : List Bytes, message = pieces.flatten ++ body ∧
        pieces.length = messageKeys tokens ∧
        Walks tokens .writeMessage pieces state after := by
  induction tokens with
  | nil =>
      intro message body state after ran
      cases ran
      exact ⟨[], rfl, rfl, Walks.nil state⟩
  | cons token tokens ih =>
      intro message body state after ran
      rw [readTokens, modify_bind] at ran
      rw [messageKeys]
      by_cases flips : token = .flipDir
      · subst flips
        cases ran
        exact ⟨[], rfl, rfl, Walks.flip state⟩
      · rw [if_neg flips] at ran ⊢
        obtain ⟨rest, middle, read, ran⟩ := bind_eq_ok ran
        obtain ⟨pieces, whole, count, absorbed⟩ := readToken_absorbs read
        obtain ⟨more, whole', count', walks⟩ := ih ran
        refine ⟨pieces ++ more, ?_, by rw [List.length_append, count, count'],
          walks.cons flips absorbed⟩
        rw [whole, whole', List.flatten_append, List.append_assoc]

theorem writeMessage_walks {random : Nat → Bytes} {size messageOffset : Nat}
    {payload : Option Bytes} {message : Bytes} {state after : HandshakeState}
    (ran : writeMessage random size messageOffset payload state = (.ok message, after)) :
    state.action = .writeMessage ∧
      ∃ pieces : List Bytes, pieces.flatten = message ∧
        pieces.length = messageKeys state.remaining + 1 ∧
        Walks state.remaining .readMessage pieces state after := by
  rw [writeMessage, get_bind] at ran
  split at ran
  · cases ran
  · rename_i writing
    split at ran
    · cases ran
    · obtain ⟨keys, middle, tokens, ran⟩ := bind_eq_ok (failing_eq_ok ran)
      obtain ⟨body, last, encrypted, ran⟩ := bind_eq_ok ran
      cases ran
      obtain ⟨pieces, rfl, count, walks⟩ := writeTokens_walks _ tokens
      refine ⟨not_not.mp writing, pieces ++ [body], ?_, by rw [List.length_append, count]; rfl,
        walks.payload (encryptAndHash_absorbs encrypted)⟩
      rw [List.flatten_append, List.flatten_singleton]

theorem readMessage_walks {message payload : Bytes} {space : Nat} {state after : HandshakeState}
    (ran : readMessage message space state = (.ok payload, after)) :
    state.action = .readMessage ∧
      ∃ pieces : List Bytes, pieces.flatten = message ∧
        pieces.length = messageKeys state.remaining + 1 ∧
        Walks state.remaining .writeMessage pieces state after := by
  rw [readMessage, get_bind] at ran
  split at ran
  · cases ran
  · rename_i reading
    obtain ⟨body, middle, tokens, decrypted⟩ := bind_eq_ok (failing_eq_ok ran)
    obtain ⟨pieces, rfl, count, walks⟩ := readTokens_walks _ tokens
    refine ⟨not_not.mp reading, pieces ++ [body], ?_, by rw [List.length_append, count]; rfl,
      walks.payload (decryptAndHash_absorbs decrypted)⟩
    rw [List.flatten_append, List.flatten_singleton]

/-! ## What starting absorbs -/

/-- What a state of an ordinary pattern is like before it is started. -/
structure Startable (state : HandshakeState) : Prop where
  ownHashed : state.requires localPremsg = true → state.requires localRequired = true
  otherHashed : state.requires remotePremsg = true → state.requires remoteRequired = true
  ordinary : state.requires fallbackPremsg = false
  psk : state.preSharedKey.isSome = true → state.requires pskRequired = true

/-- Whether a part is hashed before the first message. -/
def HandshakeState.counts (state : HandshakeState) (requirement : UInt32) : Nat :=
  if state.requires requirement then 1 else 0

structure Starts (pieces : List Bytes) (state after : HandshakeState) : Prop where
  isInitiator : after.isInitiator = state.isInitiator
  pattern : after.pattern = state.pattern
  patternIndex : after.patternIndex = state.patternIndex
  requirements : after.requirements = state.requirements
  prologue : after.prologue = state.prologue
  hash : after.symmetric.hash = state.symmetric.hash
  h : after.symmetric.h = absorb state.symmetric.hash.digest state.symmetric.h pieces
  action : after.action = if state.isInitiator then .writeMessage else .readMessage
  first : pieces.head? = some (state.prologue.getD [])
  count : pieces.length = 1 + state.counts pskRequired + state.counts localPremsg +
    state.counts remotePremsg

/-- A start that is refused changes nothing, and one that is not goes through. -/
theorem start_cases {state : HandshakeState} (startable : Startable state) :
    (∃ e, start state = (.error e, state)) ∨ CanStart state := by
  by_cases idle : state.action ≠ .noAction
  · exact Or.inl ⟨_, by rw [start, get_bind, if_pos idle]; rfl⟩
  by_cases possible : state.pattern.flags &&& flagRemoteEphemReq ≠ 0 ∧
      state.requirements &&& fallbackPremsg = 0
  · exact Or.inl ⟨_, by rw [start, get_bind, if_neg idle, if_pos possible]; rfl⟩
  by_cases own : state.requirements &&& localRequired ≠ 0 ∧
      hasPrivateKey state.localKeyPair = false
  · exact Or.inl ⟨_, by rw [start, get_bind, if_neg idle, if_neg possible, if_pos own]; rfl⟩
  by_cases other : state.requirements &&& remoteRequired ≠ 0 ∧
      hasPublicKey state.remotePublicKey = false
  · exact Or.inl ⟨_, by
      rw [start, get_bind, if_neg idle, if_neg possible, if_neg own, if_pos other]
      rfl⟩
  by_cases psk : state.requirements &&& pskRequired ≠ 0 ∧ state.preSharedKey.isNone = true
  · exact Or.inl ⟨_, by
      rw [start, get_bind, if_neg idle, if_neg possible, if_neg own, if_neg other, if_pos psk]
      rfl⟩
  have ownKey (needed : state.requires localRequired = true) :
      hasPrivateKey state.localKeyPair = true := by
    by_contra missing
    exact own ⟨bne_iff_ne.mp needed, Bool.eq_false_of_not_eq_true missing⟩
  have otherKey (needed : state.requires remoteRequired = true) :
      hasPublicKey state.remotePublicKey = true := by
    by_contra missing
    exact other ⟨bne_iff_ne.mp needed, Bool.eq_false_of_not_eq_true missing⟩
  refine Or.inr ⟨not_not.mp idle, fun fallback => ?_, ownKey, otherKey, fun needed => ?_,
    fun needed => ?_, fun needed => ?_, fun needed => ?_⟩
  · by_contra missing
    exact possible ⟨fallback, by simpa [requires] using missing⟩
  · by_contra missing
    exact psk ⟨bne_iff_ne.mp needed, by simpa using missing⟩
  · have there := ownKey (startable.ownHashed needed)
    cases held : state.localKeyPair with
    | none =>
        rw [held] at there
        cases there
    | some key => rfl
  · have there := otherKey (startable.otherHashed needed)
    cases held : state.remotePublicKey with
    | none =>
        rw [held] at there
        cases there
    | some key => rfl
  · rw [startable.ordinary] at needed
    cases needed

/-- `pieces` lead from one symmetric state to another. -/
def SymmetricState.Leads (pieces : List Bytes) (symmetric after : SymmetricState) : Prop :=
  after.hash = symmetric.hash ∧ after.h = absorb symmetric.hash.digest symmetric.h pieces

theorem SymmetricState.Leads.trans {pieces more : List Bytes} {first second third : SymmetricState}
    (before : Leads pieces first second) (after : Leads more second third) :
    Leads (pieces ++ more) first third := by
  refine ⟨after.1.trans before.1, ?_⟩
  rw [absorb_append, ← before.2, ← before.1]
  exact after.2

theorem mixOptional_leads (symmetric : SymmetricState) (key : Option Bytes) :
    SymmetricState.Leads key.toList symmetric (symmetric.mixOptional key) := by
  cases key <;> exact ⟨rfl, rfl⟩

theorem mixOptionalKey_leads (symmetric : SymmetricState) (key : Option Bytes) :
    ∃ pieces : List Bytes, pieces.length = (if key.isSome then 1 else 0) ∧
      SymmetricState.Leads pieces symmetric (symmetric.mixOptionalKey key) := by
  cases key with
  | none => exact ⟨[], rfl, rfl, rfl⟩
  | some key => exact ⟨[_], rfl, rfl, rfl⟩

theorem premessage_length {state : HandshakeState} {requirement : UInt32} {key : Option DHState}
    (there : state.requires requirement = true → key.isSome = true) :
    (state.premessage requirement key).toList.length = state.counts requirement := by
  rw [premessage, counts]
  cases needed : state.requires requirement with
  | false => rfl
  | true =>
      obtain ⟨dh, rfl⟩ := Option.isSome_iff_exists.mp (there needed)
      rfl

theorem premessages_leads {state : HandshakeState} (startable : Startable state)
    (can : CanStart state) (symmetric : SymmetricState) :
    ∃ pieces : List Bytes,
      pieces.length = state.counts localPremsg + state.counts remotePremsg ∧
      SymmetricState.Leads pieces symmetric (state.premessages symmetric) := by
  have own := premessage_length can.ownHashed
  have other := premessage_length can.otherHashed
  have unused (ephemeral hybrid : Option DHState) : state.reusedKeys ephemeral hybrid = none := by
    rw [reusedKeys, startable.ordinary]
    rfl
  rw [premessages]
  simp only [unused, SymmetricState.mixReused]
  split
  · refine ⟨_, ?_, (mixOptional_leads symmetric _).trans (mixOptional_leads _ _)⟩
    rw [List.length_append, own, other]
  · refine ⟨_, ?_, (mixOptional_leads symmetric _).trans (mixOptional_leads _ _)⟩
    rw [List.length_append, own, other, Nat.add_comm]

theorem start_starts {state : HandshakeState} (startable : Startable state)
    (can : CanStart state) :
    ∃ after pieces, start state = (.ok (), after) ∧ Starts pieces state after := by
  obtain ⟨secret, secretCount, secretLeads⟩ :=
    mixOptionalKey_leads (state.symmetric.mixHash (state.prologue.getD [])) state.preSharedKey
  obtain ⟨keys, keyCount, keysLead⟩ := premessages_leads startable can
    ((state.symmetric.mixHash (state.prologue.getD [])).mixOptionalKey state.preSharedKey)
  have prologue : SymmetricState.Leads [state.prologue.getD []] state.symmetric
      (state.symmetric.mixHash (state.prologue.getD [])) := ⟨rfl, rfl⟩
  have whole := (prologue.trans secretLeads).trans keysLead
  have psk : state.preSharedKey.isSome = state.requires pskRequired :=
    Bool.eq_iff_iff.mpr ⟨startable.psk, can.psk⟩
  refine ⟨_, _, start_eq can, ⟨rfl, rfl, rfl, rfl, rfl, whole.1, whole.2, rfl, rfl, ?_⟩⟩
  rw [psk] at secretCount
  rw [List.length_append, List.length_append, secretCount, keyCount, counts, counts, counts]
  exact (Nat.add_assoc _ _ _).symm

end Conclave.NoiseProtocol
