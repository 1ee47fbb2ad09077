import ConclaveFormal.NoiseProtocol.Agreement

/-!
# One message of a handshake

`Turn` holds between two messages: the two sides are linked, one of them is to
write and the other to read.  Any message then arrives with its payload, and
either it is the other side's turn or both sides have come to the end.
-/

set_option autoImplicit false

namespace Conclave.NoiseProtocol

open Conclave.Lib Attempt Pattern HandshakeState

variable {suite : Suite} {known : Known}

/-! ## Any token -/

/-- An upper bound on what a token adds to a message. -/
def Suite.tokenLength (suite : Suite) (token : Token) : Nat :=
  match token.sent with
  | some slot => (suite.algorithm slot).keyLength + 16
  | none => 0

/-- The same for the tokens of one message. -/
def Suite.keysLength (suite : Suite) : List Token → Nat
  | [] => 0
  | token :: tokens =>
      if token = .flipDir then 0 else suite.tokenLength token + suite.keysLength tokens

/-- What one step through the pattern has checked. -/
theorem readyFrom_cons {flags : UInt16} {token : Token} {tokens : List Token} {writer : Bool}
    (ready : readyFrom flags (token :: tokens) writer known = true) (stays : token ≠ .flipDir) :
    ∃ next, token.Ready flags writer known next ∧ readyFrom flags tokens writer next = true := by
  cases sent : token.sent with
  | some slot =>
      simp only [readyFrom, sent, Bool.and_eq_true] at ready
      exact ⟨_, Or.inl ⟨slot, sent, ready.1, rfl⟩, ready.2⟩
  | none =>
      cases mixes : token.mixed with
      | some pair =>
          obtain ⟨first, second⟩ := pair
          simp only [readyFrom, sent, mixes, Bool.and_eq_true, decide_eq_true_eq] at ready
          exact ⟨known, Or.inr ⟨first, second, mixes, ready.1.1, ready.1.2, rfl⟩, ready.2⟩
      | none => cases token <;> simp [Token.sent, Token.mixed] at sent mixes stays

theorem token_agrees {token : Token} {next : Known} {writer reader : HandshakeState}
    {random : Bytes} {space : Nat} (linked : Linked suite known writer reader)
    (ready : token.Ready writer.pattern.flags writer.isInitiator known next)
    (decrypts : writer.symmetric.cipher.algorithm.Decrypts)
    (regular : (suite.algorithm .ephemeral).Regular random)
    (room : suite.tokenLength token ≤ space) (unused : writer.symmetric.cipher.nonce ≠ lastNonce) :
    ∃ chunk writer' reader', writeToken random space token writer = (.ok chunk, writer') ∧
      chunk.length ≤ suite.tokenLength token ∧
      (∀ rest, readToken (chunk ++ rest) token reader = (.ok rest, reader')) ∧
      Advanced suite next writer writer' reader reader' := by
  rcases ready with ⟨slot, sent, owned, rfl⟩ | ⟨first, second, mixes, sent, sent', rfl⟩
  · have length : suite.tokenLength token = (suite.algorithm slot).keyLength + 16 := by
      rw [Suite.tokenLength, sent]
    rw [length] at room ⊢
    cases token with
    | e =>
        cases sent
        exact ephemeralToken_agrees linked owned room regular
    | s =>
        cases sent
        exact staticToken_agrees linked decrypts owned room unused
    | f =>
        cases sent
        exact hybridToken_agrees linked decrypts owned room unused
    | _ => cases sent
  · obtain ⟨writer', reader', wrote, read, advanced⟩ :=
      mixedToken_agrees mixes linked sent sent' random space
    exact ⟨[], writer', reader', wrote, Nat.zero_le _, read, advanced⟩

/-! ## All tokens of a message -/

theorem writeTokens_cons {random : Nat → Bytes} {token : Token} {tokens : List Token}
    {space : Nat} {state after final : HandshakeState} {chunk keys : Bytes}
    (stays : token ≠ .flipDir)
    (wrote : writeToken (random state.patternIndex) space token
      { state with patternIndex := state.patternIndex + 1 } = (.ok chunk, after))
    (later : writeTokens random tokens (space - chunk.length) after = (.ok keys, final)) :
    writeTokens random (token :: tokens) space state = (.ok (chunk ++ keys), final) := by
  rw [writeTokens, get_bind, modify_bind, if_neg stays, bind_ok wrote, bind_ok later]
  rfl

theorem readTokens_cons {token : Token} {tokens : List Token} {message rest : Bytes}
    {state after : HandshakeState} (stays : token ≠ .flipDir)
    (read : readToken message token { state with patternIndex := state.patternIndex + 1 } =
      (.ok rest, after)) :
    readTokens (token :: tokens) message state = readTokens tokens rest after := by
  rw [readTokens, modify_bind, if_neg stays, bind_ok read]

theorem Linked.advance {first second : HandshakeState} (linked : Linked suite known first second) :
    Linked suite known { first with patternIndex := first.patternIndex + 1 }
      { second with patternIndex := second.patternIndex + 1 } where
  symmetric := linked.symmetric
  role := linked.role
  pattern := linked.pattern
  index := congrArg (· + 1) linked.index
  psk := linked.psk
  shows := linked.shows.congr rfl rfl (by funext slot; cases slot <;> rfl)
    (by funext slot; cases slot <;> rfl)
  shown := linked.shown.congr rfl rfl (by funext slot; cases slot <;> rfl)
    (by funext slot; cases slot <;> rfl)

theorem Linked.act {first second : HandshakeState} (linked : Linked suite known first second)
    (action action' : Action) :
    Linked suite known { first with action := action } { second with action := action' } where
  symmetric := linked.symmetric
  role := linked.role
  pattern := linked.pattern
  index := linked.index
  psk := linked.psk
  shows := linked.shows.congr rfl rfl (by funext slot; cases slot <;> rfl)
    (by funext slot; cases slot <;> rfl)
  shown := linked.shown.congr rfl rfl (by funext slot; cases slot <;> rfl)
    (by funext slot; cases slot <;> rfl)

/-- The rest of the pattern after a message. -/
def afterMessage : List Token → Option (List Token)
  | [] => none
  | token :: tokens => if token = .flipDir then some tokens else afterMessage tokens

/-- Both sides after the tokens of a message and before its payload; `tokens` were left before. -/
structure Walked (suite : Suite) (tokens : List Token) (writer writer' reader' : HandshakeState) :
    Prop where
  linked : ∃ next, Linked suite next writer' reader' ∧
    ∀ rest, afterMessage tokens = some rest →
      readyFrom writer'.pattern.flags rest (!writer'.isInitiator) next = true
  isInitiator : writer'.isInitiator = writer.isInitiator
  pattern : writer'.pattern = writer.pattern
  algorithm : writer'.symmetric.cipher.algorithm = writer.symmetric.cipher.algorithm
  flipped : ∀ rest, afterMessage tokens = some rest →
    writer'.action = .readMessage ∧ reader'.action = .writeMessage ∧
      writer'.patternIndex + rest.length = writer.patternIndex + tokens.length ∧
      writer'.symmetric.cipher.nonce + rest.length + 1 ≤
        writer.symmetric.cipher.nonce + tokens.length
  ended : afterMessage tokens = none →
    writer'.action = .split ∧ reader'.action = .split ∧
      writer'.symmetric.cipher.nonce ≤ writer.symmetric.cipher.nonce + tokens.length

/-- The keys of one message arrive and are mixed alike; the induction is over the tokens
that are left. -/
theorem tokens_agree {random : Nat → Bytes}
    (regular : ∀ index, (suite.algorithm .ephemeral).Regular (random index))
    (tokens : List Token) : ∀ (known : Known) (writer reader : HandshakeState) (space : Nat),
    Linked suite known writer reader →
    readyFrom writer.pattern.flags tokens writer.isInitiator known = true →
    writer.symmetric.cipher.algorithm.Decrypts →
    suite.keysLength tokens ≤ space →
    writer.symmetric.cipher.nonce + tokens.length < lastNonce →
    ∃ keys writer' reader', writeTokens random tokens space writer = (.ok keys, writer') ∧
      keys.length ≤ suite.keysLength tokens ∧
      (∀ rest, readTokens tokens (keys ++ rest) reader = (.ok rest, reader')) ∧
      Walked suite tokens writer writer' reader' := by
  induction tokens with
  | nil =>
      intro known writer reader space linked _ _ _ _
      exact ⟨[], { writer with action := .split }, { reader with action := .split }, rfl,
        Nat.zero_le _, fun rest => rfl,
        { linked := ⟨known, linked.act _ _, fun rest impossible => by cases impossible⟩
          isInitiator := rfl
          pattern := rfl
          algorithm := rfl
          flipped := fun rest impossible => by cases impossible
          ended := fun _ => ⟨rfl, rfl, le_refl _⟩ }⟩
  | cons token tokens ih =>
      intro known writer reader space linked ready decrypts room unused
      rw [List.length_cons] at unused
      by_cases flips : token = .flipDir
      · subst flips
        refine ⟨[], { writer with patternIndex := writer.patternIndex + 1, action := .readMessage },
          { reader with patternIndex := reader.patternIndex + 1, action := .writeMessage },
          rfl, Nat.zero_le _, fun rest => rfl, ?_⟩
        have rest_eq : afterMessage (.flipDir :: tokens) = some tokens := rfl
        exact
          { linked := ⟨known, linked.advance.act _ _, fun rest after => by
              rw [rest_eq] at after
              cases after
              exact ready⟩
            isInitiator := rfl
            pattern := rfl
            algorithm := rfl
            flipped := fun rest after => by
              rw [rest_eq] at after
              cases after
              refine ⟨rfl, rfl, ?_, ?_⟩ <;> simp only [List.length_cons] <;> omega
            ended := fun after => by cases after }
      · obtain ⟨next, here, later⟩ := readyFrom_cons ready flips
        rw [Suite.keysLength, if_neg flips] at room ⊢
        obtain ⟨chunk, writer', reader', wrote, short, read, advanced⟩ :=
          token_agrees linked.advance here decrypts
            (regular writer.patternIndex) (Nat.le_trans (Nat.le_add_right _ _) room) (by
              show writer.symmetric.cipher.nonce ≠ lastNonce
              omega)
        have nonce : writer'.symmetric.cipher.nonce ≤ writer.symmetric.cipher.nonce + 1 :=
          advanced.nonce
        obtain ⟨keys, writer'', reader'', wrote', short', read', walked⟩ :=
          ih next writer' reader' (space - chunk.length) advanced.linked
            (by
              rw [advanced.writerKeeps.pattern, advanced.writerKeeps.isInitiator]
              exact later)
            (by
              rw [advanced.algorithm]
              exact decrypts)
            (by omega) (by omega)
        have after_eq : afterMessage (token :: tokens) = afterMessage tokens := if_neg flips
        refine ⟨chunk ++ keys, writer'', reader'', writeTokens_cons flips wrote wrote', ?_,
          fun rest => ?_, ?_⟩
        · rw [List.length_append]
          omega
        · rw [List.append_assoc, readTokens_cons flips (read (keys ++ rest))]
          exact read' rest
        · have index : writer'.patternIndex = writer.patternIndex + 1 :=
            advanced.writerKeeps.patternIndex
          exact
            { linked := by
                rw [after_eq]
                exact walked.linked
              isInitiator := walked.isInitiator.trans advanced.writerKeeps.isInitiator
              pattern := walked.pattern.trans advanced.writerKeeps.pattern
              algorithm := walked.algorithm.trans advanced.algorithm
              flipped := fun rest after => by
                obtain ⟨reads, writes, place, counted⟩ := walked.flipped rest (after_eq ▸ after)
                refine ⟨reads, writes, ?_, ?_⟩ <;> rw [List.length_cons] <;> omega
              ended := fun after => by
                obtain ⟨ends, ends', counted⟩ := walked.ended (after_eq ▸ after)
                refine ⟨ends, ends', ?_⟩
                rw [List.length_cons]
                omega }

/-! ## Keys and payload -/

theorem afterMessage_suffix {tokens rest : List Token} (after : afterMessage tokens = some rest) :
    ∃ before, tokens = before ++ rest := by
  induction tokens with
  | nil => cases after
  | cons token tokens ih =>
      rw [afterMessage] at after
      split at after
      · cases after
        exact ⟨[token], rfl⟩
      · obtain ⟨before, rfl⟩ := ih after
        exact ⟨token :: before, rfl⟩

/-- Between two messages, `writer` writes the next one. -/
structure Turn (suite : Suite) (writer reader : HandshakeState) : Prop where
  linked : ∃ known, Linked suite known writer reader ∧
    readyFrom writer.pattern.flags writer.remaining writer.isInitiator known = true
  writing : writer.action = .writeMessage
  reading : reader.action = .readMessage
  decrypts : writer.symmetric.cipher.algorithm.Decrypts
  unused : writer.symmetric.cipher.nonce + writer.remaining.length < lastNonce

/-- Both sides can split. -/
structure Finished (first second : HandshakeState) : Prop where
  symmetric : second.symmetric = first.symmetric
  role : second.isInitiator = !first.isInitiator
  splitting : first.action = .split
  splitting' : second.action = .split

/-- A payload goes through in the state both sides are in after the keys. -/
theorem payload_agrees {writer reader : HandshakeState} {payload : Bytes} {space' : Nat}
    (space : Nat) (same : reader.symmetric = writer.symmetric)
    (decrypts : writer.symmetric.cipher.algorithm.Decrypts)
    (unused : writer.symmetric.cipher.nonce ≠ lastNonce) (room : payload.length + 16 ≤ space)
    (room' : payload.length ≤ space') :
    ∃ body symmetric,
      encryptAndHash payload space writer = (.ok body, setSymmetric symmetric writer) ∧
      body.length ≤ payload.length + 16 ∧
      decryptAndHash body space' reader = (.ok payload, setSymmetric symmetric reader) ∧
      symmetric.cipher.algorithm = writer.symmetric.cipher.algorithm ∧
      symmetric.cipher.nonce ≤ writer.symmetric.cipher.nonce + 1 := by
  have tag := getMACLength_le writer.symmetric
  obtain ⟨body, symmetric, ran, length, algorithm, _, nonce⟩ :=
    SymmetricState.encryptAndHash_progress writer.symmetric payload space (by omega) unused
  have opened := SymmetricState.decryptAndHash_of_encryptAndHash decrypts ran room'
  rw [← same] at opened
  exact ⟨body, symmetric, within_eq HandshakeState.symmetric setSymmetric ran, by omega,
    within_eq HandshakeState.symmetric setSymmetric opened, algorithm, nonce⟩

/-- A message arrives, and both sides agree on what comes next. -/
theorem message_agrees {random : Nat → Bytes}
    (regular : ∀ index, (suite.algorithm .ephemeral).Regular (random index))
    {writer reader : HandshakeState} (turn : Turn suite writer reader) (payload : Bytes)
    (size messageOffset space : Nat)
    (room : messageOffset + suite.keysLength writer.remaining + payload.length + 16 ≤ size)
    (room' : payload.length ≤ space) :
    ∃ message writer' reader',
      writeMessage random size messageOffset (some payload) writer = (.ok message, writer') ∧
      readMessage message space reader = (.ok payload, reader') ∧
      (∀ rest, afterMessage writer.remaining = some rest →
        Turn suite reader' writer' ∧ reader'.remaining = rest) ∧
      (afterMessage writer.remaining = none → Finished writer' reader') := by
  obtain ⟨known, linked, ready⟩ := turn.linked
  obtain ⟨keys, writer', reader', wrote, short, read, walked⟩ :=
    tokens_agree regular writer.remaining known writer reader (size - messageOffset) linked ready
      turn.decrypts (by omega) turn.unused
  obtain ⟨next, linked', ready'⟩ := walked.linked
  have nonce : writer'.symmetric.cipher.nonce ≠ lastNonce := by
    have unused := turn.unused
    cases after : afterMessage writer.remaining with
    | none =>
        have counted := (walked.ended after).2.2
        omega
    | some rest =>
        have counted := (walked.flipped rest after).2.2.2
        omega
  obtain ⟨body, symmetric, wrote', _, read', algorithm, used⟩ :=
    payload_agrees (size - messageOffset - keys.length) linked'.symmetric
      (by
        rw [walked.algorithm]
        exact turn.decrypts)
      nonce (by omega) room'
  have same : reader.remaining = writer.remaining := by
    rw [remaining, linked.pattern, linked.index]
    rfl
  refine ⟨keys ++ body, setSymmetric symmetric writer', setSymmetric symmetric reader', ?_, ?_,
    fun rest after => ?_, fun after => ?_⟩
  · rw [writeMessage, get_bind, if_neg (by rw [turn.writing]; decide), if_neg (by omega)]
    refine handle_ok ?_
    rw [bind_ok wrote]
    exact bind_ok wrote'
  · rw [readMessage, get_bind, if_neg (by rw [turn.reading]; decide)]
    refine handle_ok ?_
    rw [same, bind_ok (read body)]
    exact read'
  · obtain ⟨reads, writes, place, counted⟩ := walked.flipped rest after
    obtain ⟨before, whole⟩ := afterMessage_suffix after
    have left : (setSymmetric symmetric reader').remaining = rest := by
      have index : reader'.patternIndex = writer.patternIndex + before.length := by
        have length := congrArg List.length whole
        rw [List.length_append] at length
        rw [linked'.index]
        omega
      show reader'.pattern.tokens.drop reader'.patternIndex = rest
      rw [linked'.pattern, walked.pattern, index, ← List.drop_drop]
      show writer.remaining.drop before.length = rest
      rw [whole, List.drop_left]
    refine ⟨⟨⟨next, linked'.swap.setSymmetric symmetric, ?_⟩, writes, reads, ?_, ?_⟩, left⟩
    · rw [left]
      show readyFrom reader'.pattern.flags rest reader'.isInitiator next = true
      rw [linked'.pattern, linked'.role]
      exact ready' rest after
    · show symmetric.cipher.algorithm.Decrypts
      rw [algorithm, walked.algorithm]
      exact turn.decrypts
    · have unused := turn.unused
      rw [left]
      show symmetric.cipher.nonce + rest.length < lastNonce
      omega
  · obtain ⟨ends, ends', _⟩ := walked.ended after
    exact ⟨rfl, linked'.role, ends, ends'⟩

end Conclave.NoiseProtocol
