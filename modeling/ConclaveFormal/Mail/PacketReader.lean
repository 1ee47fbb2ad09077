import ConclaveFormal.Mail.DecryptingStream

/-!
# The decrypting stream, one step at a time

An equation for every outcome of the prologue, the handshake and a packet read,
and what the rest of the development needs of them: the fields they keep
(`Keeps`), the fields they do not look at (`withPrivateHeader`), and that a
packet read uses up input, so that the fuel of `ensureLoop` never matters.
-/

set_option autoImplicit false

namespace Conclave.Mail

open Conclave.Lib

namespace MailDecryptingStream

open Attempt

variable {N : Noise}

/-! ## Frame conditions -/

/-- What neither the handshake nor a packet read touches. -/
structure KeepsHeader (before after : MailDecryptingStream N) : Prop where
  privateHeader : after.privateHeader = before.privateHeader
  privateHeaderRead : after.privateHeaderRead = before.privateHeaderRead
  prologue : ∀ prologue, before.prologue = some prologue → after.prologue = some prologue
  input : after.input.length ≤ before.input.length

/-- A packet read also keeps the session it runs in. -/
structure Keeps (before after : MailDecryptingStream N) : Prop extends
    KeepsHeader before after where
  session : ∀ cipherState, before.cipherState = some cipherState →
    after.senderPublicKey = before.senderPublicKey ∧ after.cipherState.isSome = true

theorem KeepsHeader.refl (stream : MailDecryptingStream N) : KeepsHeader stream stream :=
  ⟨rfl, rfl, fun _ known => known, le_rfl⟩

theorem KeepsHeader.trans {first second third : MailDecryptingStream N}
    (one : KeepsHeader first second) (two : KeepsHeader second third) :
    KeepsHeader first third :=
  ⟨two.privateHeader.trans one.privateHeader, two.privateHeaderRead.trans one.privateHeaderRead,
    fun prologue known => two.prologue prologue (one.prologue prologue known),
    two.input.trans one.input⟩

private theorem keepsHeader_trans (first second third : MailDecryptingStream N)
    (one : KeepsHeader first second) (two : KeepsHeader second third) :
    KeepsHeader first third :=
  one.trans two

theorem Keeps.refl (stream : MailDecryptingStream N) : Keeps stream stream :=
  ⟨KeepsHeader.refl stream, fun _ established => ⟨rfl, by simp [established]⟩⟩

theorem Keeps.trans {first second third : MailDecryptingStream N} (one : Keeps first second)
    (two : Keeps second third) : Keeps first third := by
  refine ⟨one.toKeepsHeader.trans two.toKeepsHeader, ?_⟩
  intro cipherState established
  obtain ⟨sender, isSome⟩ := one.session cipherState established
  obtain ⟨next, established'⟩ := Option.isSome_iff_exists.mp isSome
  obtain ⟨sender', isSome'⟩ := two.session next established'
  exact ⟨sender'.trans sender, isSome'⟩

theorem keepsHeader_input (stream : MailDecryptingStream N) (input : Bytes)
    (shorter : input.length ≤ stream.input.length) :
    KeepsHeader stream { stream with input := input } :=
  ⟨rfl, rfl, fun _ known => known, shorter⟩

/-! ## The underlying stream, step by step -/

theorem readUnsignedShort_cons {stream : MailDecryptingStream N} {b1 b2 : UInt8} {rest : Bytes}
    (input : stream.input = b1 :: b2 :: rest) :
    readUnsignedShort stream =
      (.ok (b1.toNat * 256 + b2.toNat), { stream with input := rest }) := by
  have first : readUnsignedByte stream =
      (.ok b1.toNat, { stream with input := b2 :: rest }) := by
    simp [readUnsignedByte, input]
  unfold readUnsignedShort
  rw [bind_ok first]
  rfl

theorem readUnsignedShort_short {stream : MailDecryptingStream N}
    (short : stream.input.length < 2) :
    readUnsignedShort stream =
      (.error (.mailDecryption .truncatedStream), { stream with input := [] }) := by
  unfold readUnsignedShort
  cases input : stream.input with
  | nil =>
      have first : readUnsignedByte stream =
          (.error (.mailDecryption .truncatedStream), stream) := by
        simp [readUnsignedByte, input, error]
      rw [bind_error first, ← input]
  | cons byte rest =>
      rw [input, List.length_cons] at short
      have empty : rest = [] := List.length_eq_zero_iff.mp (by omega)
      have first : readUnsignedByte stream =
          (.ok byte.toNat, { stream with input := [] }) := by
        simp [readUnsignedByte, input, empty]
      rw [bind_ok first]
      rfl

theorem readInputOr_ok {stream : MailDecryptingStream N} {n : Nat} (failure : DecryptionFailure)
    (available : n ≤ stream.input.length) :
    handle (readInput n) (fun _ => error failure) stream =
      (.ok (stream.input.take n), { stream with input := stream.input.drop n }) := by
  refine handle_ok ?_
  simp [readInput, available]

theorem readInputOr_eof {stream : MailDecryptingStream N} {n : Nat} (failure : DecryptionFailure)
    (cut : stream.input.length < n) :
    handle (readInput n) (fun _ => error failure) stream =
      (.error (.mailDecryption failure), { stream with input := [] }) := by
  have read : readInput n stream = (.error .eof, { stream with input := [] }) := by
    simp [readInput, Nat.not_le.mpr cut]
  rw [handle_error read]
  rfl

/-- The prologue bytes in front of `input` and what is behind them. -/
def splitPrologue (input : Bytes) : Except DecryptionFailure (Bytes × Bytes) :=
  match input with
  | b1 :: b2 :: rest =>
      let length := b1.toNat * 256 + b2.toNat
      if length ≤ rest.length then .ok (rest.take length, rest.drop length)
      else .error .prologueEnd
  | _ => .error .truncatedStream

theorem splitPrologue_length {input raw rest : Bytes}
    (split : splitPrologue input = .ok (raw, rest)) :
    rest.length + raw.length + 2 = input.length := by
  unfold splitPrologue at split
  split at split
  · simp only at split
    split at split
    · rename_i b1 b2 tail fits
      cases split
      simp only [List.length_drop, List.length_take, List.length_cons]
      omega
    · cases split
  · cases split

theorem getPrologue_known {stream : MailDecryptingStream N} {prologue : Prologue}
    (known : stream.prologue = some prologue) :
    getPrologue stream = (.ok prologue, stream) := by
  unfold getPrologue
  rw [get_bind]
  simp only [known]
  rfl

/-- The getter before the prologue has been read. -/
theorem getPrologue_unknown {stream : MailDecryptingStream N} (unknown : stream.prologue = none) :
    getPrologue stream = (do
      let length ← readUnsignedShort
      let prologueBytes ← handle (readInput length) fun _ => error .prologueEnd
      match parsePrologue prologueBytes with
      | .error e => throw e
      | .ok prologue =>
          modify fun stream => { stream with prologue := some prologue }
          pure prologue) stream := by
  cases stream
  cases unknown
  rfl

theorem getPrologue_truncated {stream : MailDecryptingStream N} {failure : DecryptionFailure}
    (unknown : stream.prologue = none) (split : splitPrologue stream.input = .error failure) :
    getPrologue stream = (.error (.mailDecryption failure), { stream with input := [] }) := by
  rw [getPrologue_unknown unknown]
  unfold splitPrologue at split
  split at split
  · rename_i b1 b2 rest input
    simp only at split
    split at split
    · cases split
    · rename_i cut
      cases split
      rw [bind_ok (readUnsignedShort_cons input)]
      exact bind_error (readInputOr_eof _ (Nat.lt_of_not_le cut))
  · rename_i short
    cases split
    refine bind_error (readUnsignedShort_short ?_)
    rcases input : stream.input with _ | ⟨b1, _ | ⟨b2, rest⟩⟩
    · simp
    · simp
    · exact absurd input (short b1 b2 rest)

theorem getPrologue_parse {stream : MailDecryptingStream N} {raw rest : Bytes}
    (unknown : stream.prologue = none) (split : splitPrologue stream.input = .ok (raw, rest)) :
    getPrologue stream =
      match parsePrologue raw with
      | .error e => (.error e, { stream with input := rest })
      | .ok prologue =>
          (.ok prologue, { stream with input := rest, prologue := some prologue }) := by
  rw [getPrologue_unknown unknown]
  unfold splitPrologue at split
  split at split
  · rename_i b1 b2 tail input
    simp only at split
    split at split
    · rename_i fits
      cases split
      rw [bind_ok (readUnsignedShort_cons input), bind_ok (readInputOr_ok _ fits)]
      cases parsePrologue (tail.take (b1.toNat * 256 + b2.toNat)) with
      | error e => rfl
      | ok prologue => rfl
    · cases split
  · cases split

theorem getPrologue_keepsHeader : Preserves KeepsHeader (getPrologue (N := N)) := by
  intro stream
  cases known : stream.prologue with
  | some prologue =>
      rw [getPrologue_known known]
      exact KeepsHeader.refl stream
  | none =>
      cases split : splitPrologue stream.input with
      | error failure =>
          rw [getPrologue_truncated known split]
          exact keepsHeader_input stream [] (by simp)
      | ok pair =>
          obtain ⟨raw, rest⟩ := pair
          have shorter := splitPrologue_length split
          rw [getPrologue_parse known split]
          cases parsePrologue raw with
          | error e => exact keepsHeader_input stream rest (by omega)
          | ok prologue =>
              refine ⟨rfl, rfl, ?_, ?_⟩
              · intro other impossible
                rw [known] at impossible
                cases impossible
              · change rest.length ≤ stream.input.length
                omega

/-! ## The handshake -/

def handshakeFailureOf : HandshakeError → DecryptionFailure
  | .badTag => .handshakeMac
  | .other => StreamException.noise.asDecryptionFailure

theorem maybeHandshake_established {stream : MailDecryptingStream N} {cipherState : CipherState N}
    (established : stream.cipherState = some cipherState) :
    maybeHandshake stream = (.ok cipherState, stream) := by
  simp only [maybeHandshake, established]

theorem maybeHandshake_remembered {stream : MailDecryptingStream N} {failure : DecryptionFailure}
    (pending : stream.cipherState = none) (failed : stream.handshakeFailure = some failure) :
    maybeHandshake stream = (.error (.mailDecryption failure), stream) := by
  simp only [maybeHandshake, pending, failed]
  rfl

theorem maybeHandshake_untried {stream : MailDecryptingStream N}
    (pending : stream.cipherState = none) (untried : stream.handshakeFailure = none) :
    maybeHandshake stream =
      match establishSession stream with
      | (.ok cipherState, stream) => (.ok cipherState, { stream with privateKey := none })
      | (.error e, stream) =>
          (.error (.mailDecryption e.asDecryptionFailure),
            { stream with
              handshakeFailure := some e.asDecryptionFailure
              privateKey := none }) := by
  cases stream
  cases pending
  cases untried
  rfl

theorem setupHandshake_provided {stream : MailDecryptingStream N} (prologue : Prologue)
    {privateKey : N.PrivateKey} (provided : stream.privateKey = some privateKey) :
    setupHandshake prologue stream = (do
      let handshakeBuf ← handle (readInput prologue.protocol.handshakeLength) fun _ =>
        error .handshakeEnd
      match N.readMessage privateKey prologue.raw handshakeBuf with
      | .error .badTag => error .handshakeMac
      | .error .other => throw .noise
      | .ok session => pure session : Reading N (N.PublicKey × N.CipherKey)) stream := by
  cases stream
  cases provided
  rfl

/-- The first handshake, once the prologue is known. -/
theorem maybeHandshake_first {stream : MailDecryptingStream N} {prologue : Prologue}
    {privateKey : N.PrivateKey} (pending : stream.cipherState = none)
    (untried : stream.handshakeFailure = none) (known : stream.prologue = some prologue)
    (provided : stream.privateKey = some privateKey) :
    maybeHandshake stream =
      if stream.input.length < prologue.protocol.handshakeLength then
        (.error (.mailDecryption .handshakeEnd),
          { stream with
            input := []
            handshakeFailure := some .handshakeEnd
            privateKey := none })
      else
        match N.readMessage privateKey prologue.raw
            (stream.input.take prologue.protocol.handshakeLength) with
        | .error e =>
            (.error (.mailDecryption (handshakeFailureOf e)),
              { stream with
                input := stream.input.drop prologue.protocol.handshakeLength
                handshakeFailure := some (handshakeFailureOf e)
                privateKey := none })
        | .ok (sender, key) =>
            (.ok ⟨key, 0⟩,
              { stream with
                input := stream.input.drop prologue.protocol.handshakeLength
                senderPublicKey := some sender
                cipherState := some ⟨key, 0⟩
                privateKey := none }) := by
  have setup := setupHandshake_provided prologue provided
  rw [maybeHandshake_untried pending untried]
  unfold establishSession
  rw [bind_ok (getPrologue_known known)]
  by_cases short : stream.input.length < prologue.protocol.handshakeLength
  · rw [bind_error (setup.trans (bind_error (readInputOr_eof _ short))), if_pos short]
    rfl
  · have complete : prologue.protocol.handshakeLength ≤ stream.input.length := by omega
    rw [bind_ok (readInputOr_ok _ complete)] at setup
    rw [if_neg short]
    cases message : N.readMessage privateKey prologue.raw
        (stream.input.take prologue.protocol.handshakeLength) with
    | error e =>
        rw [message] at setup
        cases e with
        | badTag =>
            rw [bind_error setup]
            rfl
        | other =>
            rw [bind_error setup]
            rfl
    | ok session =>
        rw [message] at setup
        rw [bind_ok setup]
        rfl

theorem setupHandshake_keepsHeader (prologue : Prologue) :
    Preserves KeepsHeader (setupHandshake (N := N) prologue) := by
  intro stream
  unfold setupHandshake
  rw [get_bind]
  cases stream.privateKey with
  | none => exact KeepsHeader.refl stream
  | some privateKey =>
      by_cases short : stream.input.length < prologue.protocol.handshakeLength
      · simp only
        rw [bind_error (readInputOr_eof _ short)]
        exact keepsHeader_input stream [] (by simp)
      · simp only
        rw [bind_ok (readInputOr_ok _ (Nat.le_of_not_lt short))]
        have kept := keepsHeader_input stream
          (stream.input.drop prologue.protocol.handshakeLength) (by simp)
        rcases N.readMessage privateKey prologue.raw
            (stream.input.take prologue.protocol.handshakeLength) with (_ | _) | session
        · exact kept
        · exact kept
        · exact kept

theorem establishSession_keepsHeader : Preserves KeepsHeader (establishSession (N := N)) := by
  refine Preserves.bind keepsHeader_trans getPrologue_keepsHeader fun prologue => ?_
  refine Preserves.bind keepsHeader_trans (setupHandshake_keepsHeader prologue) fun session => ?_
  refine Preserves.bind keepsHeader_trans (Preserves.modify fun stream => ?_) fun _ =>
    Preserves.pure KeepsHeader.refl _
  exact ⟨rfl, rfl, fun _ known => known, le_rfl⟩

theorem establishSession_session {stream after : MailDecryptingStream N}
    {cipherState : CipherState N} (ran : establishSession stream = (.ok cipherState, after)) :
    after.cipherState = some cipherState ∧ after.senderPublicKey.isSome = true := by
  obtain ⟨prologue, _, _, ran⟩ := bind_eq_ok ran
  obtain ⟨⟨sender, key⟩, _, _, ran⟩ := bind_eq_ok ran
  cases ran
  exact ⟨rfl, rfl⟩

theorem maybeHandshake_keepsHeader : Preserves KeepsHeader (maybeHandshake (N := N)) := by
  intro stream
  cases pending : stream.cipherState with
  | some cipherState =>
      rw [maybeHandshake_established pending]
      exact KeepsHeader.refl stream
  | none =>
      cases untried : stream.handshakeFailure with
      | some failure =>
          rw [maybeHandshake_remembered pending untried]
          exact KeepsHeader.refl stream
      | none =>
          have kept := establishSession_keepsHeader stream
          rw [maybeHandshake_untried pending untried]
          cases ran : establishSession stream with
          | mk outcome after =>
              rw [ran] at kept
              cases outcome with
              | ok cipherState =>
                  exact ⟨kept.privateHeader, kept.privateHeaderRead, kept.prologue, kept.input⟩
              | error e =>
                  exact ⟨kept.privateHeader, kept.privateHeaderRead, kept.prologue, kept.input⟩

/-- A handshake that returns leaves a session behind. -/
theorem maybeHandshake_session {stream after : MailDecryptingStream N}
    {cipherState : CipherState N} (ran : maybeHandshake stream = (.ok cipherState, after)) :
    after.cipherState = some cipherState := by
  cases pending : stream.cipherState with
  | some known =>
      rw [maybeHandshake_established pending] at ran
      cases ran
      exact pending
  | none =>
      cases untried : stream.handshakeFailure with
      | some failure =>
          rw [maybeHandshake_remembered pending untried] at ran
          cases ran
      | none =>
          rw [maybeHandshake_untried pending untried] at ran
          cases established : establishSession stream with
          | mk outcome middle =>
              rw [established] at ran
              cases outcome with
              | error e => cases ran
              | ok fresh =>
                  cases ran
                  exact (establishSession_session established).1

/-! ## One packet -/

/-- `acceptPlaintext` on a plaintext that passes both length checks. -/
theorem acceptPlaintext_ok {stream : MailDecryptingStream N} {plaintext : Bytes}
    (hasLength : 2 ≤ plaintext.length)
    (fits : readShort plaintext (plaintext.length - 2) ≤ plaintext.length - 2) :
    acceptPlaintext plaintext stream =
      (.ok (), { stream with
        currentDecryptedBuffer :=
          plaintext ++ stream.currentDecryptedBuffer.drop plaintext.length
        currentUserBytesLength := readShort plaintext (plaintext.length - 2)
        currentUserBytesIndex := if plaintext.length - 2 = 0 then -1 else 0 }) := by
  unfold acceptPlaintext
  rw [modify_bind, if_neg (by omega), modify_bind, if_neg (by omega)]
  rfl

theorem acceptPlaintext_short {stream : MailDecryptingStream N} {plaintext : Bytes}
    (short : plaintext.length < 2) :
    acceptPlaintext plaintext stream =
      (.error (.mailDecryption (.plaintextLength plaintext.length)), { stream with
        currentDecryptedBuffer :=
          plaintext ++ stream.currentDecryptedBuffer.drop plaintext.length }) := by
  unfold acceptPlaintext
  rw [modify_bind, if_pos short]
  rfl

theorem acceptPlaintext_oversized {stream : MailDecryptingStream N} {plaintext : Bytes}
    (hasLength : 2 ≤ plaintext.length)
    (oversized : plaintext.length - 2 < readShort plaintext (plaintext.length - 2)) :
    acceptPlaintext plaintext stream =
      (.error (.mailDecryption .userBytesLength), { stream with
        currentDecryptedBuffer :=
          plaintext ++ stream.currentDecryptedBuffer.drop plaintext.length
        currentUserBytesLength := readShort plaintext (plaintext.length - 2) }) := by
  unfold acceptPlaintext
  rw [modify_bind, if_neg (by omega), modify_bind, if_pos oversized]
  rfl

theorem readNextPacket_noSession {stream after : MailDecryptingStream N} {e : StreamException}
    (failed : maybeHandshake stream = (.error e, after)) :
    readNextPacket stream = (.error e, after) :=
  bind_error failed

/-- The handshake leaves the stream as if it had been done beforehand. -/
theorem readNextPacket_afterHandshake {stream after : MailDecryptingStream N}
    {cipherState : CipherState N} (established : maybeHandshake stream = (.ok cipherState, after))
    (session : after.cipherState = some cipherState) :
    readNextPacket stream = readNextPacket after := by
  unfold readNextPacket
  rw [bind_ok established, bind_ok (maybeHandshake_established session)]

section Session

variable {stream : MailDecryptingStream N} {cipherState : CipherState N}
  (session : stream.cipherState = some cipherState)
include session

theorem readNextPacket_truncated (short : stream.input.length < 2) :
    readNextPacket stream =
      (.error (.mailDecryption .truncatedStream), { stream with input := [] }) := by
  unfold readNextPacket
  rw [bind_ok (maybeHandshake_established session)]
  exact bind_error (readUnsignedShort_short short)

variable {b1 b2 : UInt8} {rest : Bytes} (input : stream.input = b1 :: b2 :: rest)
include input

theorem readNextPacket_tooSmall (small : b1.toNat * 256 + b2.toNat < macLength) :
    readNextPacket stream =
      (.error (.mailDecryption (.packetLength (b1.toNat * 256 + b2.toNat))),
        { stream with input := rest }) := by
  unfold readNextPacket
  rw [bind_ok (maybeHandshake_established session), bind_ok (readUnsignedShort_cons input),
    if_pos small]
  rfl

theorem readNextPacket_cut (large : macLength ≤ b1.toNat * 256 + b2.toNat)
    (cut : rest.length < b1.toNat * 256 + b2.toNat) :
    readNextPacket stream =
      (.error (.mailDecryption .missingTerminator), { stream with input := [] }) := by
  unfold readNextPacket
  rw [bind_ok (maybeHandshake_established session), bind_ok (readUnsignedShort_cons input),
    if_neg (by omega)]
  exact bind_error (readInputOr_eof _ cut)

theorem readNextPacket_whole (large : macLength ≤ b1.toNat * 256 + b2.toNat)
    (whole : b1.toNat * 256 + b2.toNat ≤ rest.length) :
    readNextPacket stream =
      (match (cipherState.decryptWithAd (rest.take (b1.toNat * 256 + b2.toNat))).1 with
        | none => error .decrypt
        | some plaintext => acceptPlaintext plaintext)
      { stream with
        input := rest.drop (b1.toNat * 256 + b2.toNat)
        cipherState :=
          some (cipherState.decryptWithAd (rest.take (b1.toNat * 256 + b2.toNat))).2 } := by
  unfold readNextPacket
  rw [bind_ok (maybeHandshake_established session), bind_ok (readUnsignedShort_cons input),
    if_neg (by omega), bind_ok (readInputOr_ok _ whole)]
  rfl

omit input in
/-- Inside a session a packet read changes the input, the counter and the
buffer with its cursors, and nothing else. -/
theorem readNextPacket_shape :
    ∃ input cipherState buffer length index,
      (readNextPacket stream).2 = { stream with
        input := input
        cipherState := some cipherState
        currentDecryptedBuffer := buffer
        currentUserBytesLength := length
        currentUserBytesIndex := index } ∧
      input.length ≤ stream.input.length ∧
      ((readNextPacket stream).1 = .ok () → input.length + 2 ≤ stream.input.length) := by
  rcases input : stream.input with _ | ⟨b1, _ | ⟨b2, rest⟩⟩
  · rw [readNextPacket_truncated session (by simp [input])]
    exact ⟨[], cipherState, _, _, _, by rw [← session], by simp, by simp⟩
  · rw [readNextPacket_truncated session (by simp [input])]
    exact ⟨[], cipherState, _, _, _, by rw [← session], by simp, by simp⟩
  · by_cases small : b1.toNat * 256 + b2.toNat < macLength
    · rw [readNextPacket_tooSmall session input small]
      exact ⟨rest, cipherState, _, _, _, by rw [← session], by simp; omega, by simp⟩
    · by_cases cut : rest.length < b1.toNat * 256 + b2.toNat
      · rw [readNextPacket_cut session input (by omega) cut]
        exact ⟨[], cipherState, _, _, _, by rw [← session], by simp, by simp⟩
      · rw [readNextPacket_whole session input (by omega) (by omega)]
        cases (cipherState.decryptWithAd (rest.take (b1.toNat * 256 + b2.toNat))).1 with
        | none => exact ⟨_, _, _, _, _, rfl, by simp; omega, by intro; simp⟩
        | some plaintext =>
            by_cases short : plaintext.length < 2
            · simp only [acceptPlaintext_short short]
              exact ⟨_, _, _, _, _, rfl, by simp; omega, by intro; simp⟩
            · by_cases fits :
                  readShort plaintext (plaintext.length - 2) ≤ plaintext.length - 2
              · simp only [acceptPlaintext_ok (by omega) fits]
                exact ⟨_, _, _, _, _, rfl, by simp; omega, by intro; simp⟩
              · simp only [acceptPlaintext_oversized (Nat.le_of_not_lt short)
                  (Nat.lt_of_not_le fits)]
                exact ⟨_, _, _, _, _, rfl, by simp; omega, by intro; simp⟩

omit input in
/-- What a packet must be like to be accepted, and what it leaves behind. -/
theorem readNextPacket_accepted {after : MailDecryptingStream N}
    (accepted : readNextPacket stream = (.ok (), after)) :
    ∃ b1 b2 rest plaintext, stream.input = b1 :: b2 :: rest ∧
      macLength ≤ b1.toNat * 256 + b2.toNat ∧ b1.toNat * 256 + b2.toNat ≤ rest.length ∧
      cipherState.nonce ≠ lastNonce ∧
      N.decrypt cipherState.key cipherState.nonce (rest.take (b1.toNat * 256 + b2.toNat)) =
        some plaintext ∧
      2 ≤ plaintext.length ∧
      readShort plaintext (plaintext.length - 2) ≤ plaintext.length - 2 ∧
      after = { stream with
        input := rest.drop (b1.toNat * 256 + b2.toNat)
        cipherState := some { cipherState with nonce := cipherState.nonce + 1 }
        currentDecryptedBuffer :=
          plaintext ++ stream.currentDecryptedBuffer.drop plaintext.length
        currentUserBytesLength := readShort plaintext (plaintext.length - 2)
        currentUserBytesIndex := if plaintext.length - 2 = 0 then -1 else 0 } := by
  rcases input : stream.input with _ | ⟨b1, _ | ⟨b2, rest⟩⟩
  · rw [readNextPacket_truncated session (by simp [input])] at accepted
    cases accepted
  · rw [readNextPacket_truncated session (by simp [input])] at accepted
    cases accepted
  · by_cases small : b1.toNat * 256 + b2.toNat < macLength
    · rw [readNextPacket_tooSmall session input small] at accepted
      cases accepted
    · by_cases cut : rest.length < b1.toNat * 256 + b2.toNat
      · rw [readNextPacket_cut session input (by omega) cut] at accepted
        cases accepted
      · rw [readNextPacket_whole session input (by omega) (by omega)] at accepted
        by_cases exhausted : cipherState.nonce = lastNonce
        · simp only [CipherState.decryptWithAd, if_pos exhausted] at accepted
          cases accepted
        · simp only [CipherState.decryptWithAd, if_neg exhausted] at accepted
          cases decrypted : N.decrypt cipherState.key cipherState.nonce
              (rest.take (b1.toNat * 256 + b2.toNat)) with
          | none =>
              rw [decrypted] at accepted
              cases accepted
          | some plaintext =>
              rw [decrypted] at accepted
              by_cases short : plaintext.length < 2
              · simp only [acceptPlaintext_short short] at accepted
                cases accepted
              · by_cases fits :
                    readShort plaintext (plaintext.length - 2) ≤ plaintext.length - 2
                · simp only [acceptPlaintext_ok (Nat.le_of_not_lt short) fits] at accepted
                  cases accepted
                  exact ⟨b1, b2, rest, plaintext, rfl, by omega, by omega, exhausted, decrypted,
                    by omega, fits, rfl⟩
                · simp only [acceptPlaintext_oversized (Nat.le_of_not_lt short)
                    (Nat.lt_of_not_le fits)] at accepted
                  cases accepted

end Session

theorem readNextPacket_keeps : Preserves Keeps (readNextPacket (N := N)) := by
  intro stream
  cases pending : stream.cipherState with
  | some cipherState =>
      obtain ⟨input, cipherState', buffer, length, index, shape, shorter, _⟩ :=
        readNextPacket_shape pending
      rw [shape]
      exact ⟨⟨rfl, rfl, fun _ known => known, shorter⟩, fun _ _ => ⟨rfl, rfl⟩⟩
  | none =>
      -- There is no session yet that could be kept.
      refine ⟨?_, fun _ established => by rw [pending] at established; cases established⟩
      have kept := maybeHandshake_keepsHeader stream
      cases ran : maybeHandshake stream with
      | mk outcome middle =>
          rw [ran] at kept
          cases outcome with
          | error e =>
              rw [readNextPacket_noSession ran]
              exact kept
          | ok cipherState =>
              have session := maybeHandshake_session ran
              obtain ⟨input, cipherState', buffer, length, index, shape, shorter, _⟩ :=
                readNextPacket_shape session
              rw [readNextPacket_afterHandshake ran session, shape]
              exact ⟨kept.privateHeader, kept.privateHeaderRead, kept.prologue,
                shorter.trans kept.input⟩

/-- An accepted packet uses up its length field at least. -/
theorem readNextPacket_consumes {stream after : MailDecryptingStream N}
    (accepted : readNextPacket stream = (.ok (), after)) :
    after.input.length + 2 ≤ stream.input.length ∧ after.cipherState.isSome = true := by
  cases ran : maybeHandshake stream with
  | mk outcome middle =>
      cases outcome with
      | error e =>
          rw [readNextPacket_noSession ran] at accepted
          cases accepted
      | ok cipherState =>
          have kept := (maybeHandshake_keepsHeader stream).input
          rw [ran] at kept
          simp only at kept
          have session := maybeHandshake_session ran
          obtain ⟨input, cipherState', buffer, length, index, shape, _, consumed⟩ :=
            readNextPacket_shape session
          rw [readNextPacket_afterHandshake ran session] at accepted
          rw [accepted] at shape consumed
          have bound := consumed rfl
          simp only at shape
          rw [shape]
          exact ⟨by simp only; omega, rfl⟩

/-! ## The private header is invisible to packet reads -/

def withPrivateHeader (privateHeader : Option Bytes) (privateHeaderRead : Bool)
    (stream : MailDecryptingStream N) : MailDecryptingStream N :=
  { stream with privateHeader := privateHeader, privateHeaderRead := privateHeaderRead }

section Ignores

variable (privateHeader : Option Bytes) (privateHeaderRead : Bool)

theorem readUnsignedByte_ignores :
    Ignores (withPrivateHeader privateHeader privateHeaderRead)
      (readUnsignedByte (N := N)) := by
  rintro ⟨_ | ⟨byte, rest⟩⟩
  · rfl
  · rfl

theorem readUnsignedShort_ignores :
    Ignores (withPrivateHeader privateHeader privateHeaderRead)
      (readUnsignedShort (N := N)) :=
  Ignores.bind (readUnsignedByte_ignores _ _) fun _ =>
    Ignores.bind (readUnsignedByte_ignores _ _) fun _ => Ignores.pure _

theorem readInputOr_ignores (n : Nat) (failure : DecryptionFailure) :
    Ignores (withPrivateHeader privateHeader privateHeaderRead)
      (handle (readInput (N := N) n) fun _ => error failure) := by
  refine Ignores.handle ?_ fun _ => Ignores.throw _
  intro stream
  by_cases available : n ≤ stream.input.length
  · simp [readInput, withPrivateHeader, available]
  · simp [readInput, withPrivateHeader, available]

theorem getPrologue_ignores :
    Ignores (withPrivateHeader privateHeader privateHeaderRead) (getPrologue (N := N)) := by
  intro stream
  cases known : stream.prologue with
  | some prologue =>
      have known' :
          (withPrivateHeader privateHeader privateHeaderRead stream).prologue = some prologue :=
        known
      rw [getPrologue_known known, getPrologue_known known']
  | none =>
      have known' :
          (withPrivateHeader privateHeader privateHeaderRead stream).prologue = none := known
      rw [getPrologue_unknown known, getPrologue_unknown known']
      refine Ignores.bind (readUnsignedShort_ignores _ _) (fun length => ?_) stream
      refine Ignores.bind (readInputOr_ignores _ _ length _) fun raw => ?_
      cases parsePrologue raw with
      | error e => exact Ignores.throw e
      | ok prologue => exact Ignores.bind (Ignores.modify fun _ => rfl) fun _ => Ignores.pure _

theorem setupHandshake_ignores (prologue : Prologue) :
    Ignores (withPrivateHeader privateHeader privateHeaderRead)
      (setupHandshake (N := N) prologue) := by
  intro stream
  have key : (withPrivateHeader privateHeader privateHeaderRead stream).privateKey =
      stream.privateKey := rfl
  unfold setupHandshake
  rw [get_bind, get_bind, key]
  cases stream.privateKey with
  | none => rfl
  | some privateKey =>
      refine Ignores.bind (readInputOr_ignores _ _ _ _) (fun message => ?_) stream
      rcases N.readMessage privateKey prologue.raw message with (_ | _) | session
      · exact Ignores.throw _
      · exact Ignores.throw _
      · exact Ignores.pure _

theorem establishSession_ignores :
    Ignores (withPrivateHeader privateHeader privateHeaderRead)
      (establishSession (N := N)) :=
  Ignores.bind (getPrologue_ignores _ _) fun prologue =>
    Ignores.bind (setupHandshake_ignores _ _ prologue) fun _ =>
      Ignores.bind (Ignores.modify fun _ => rfl) fun _ => Ignores.pure _

theorem maybeHandshake_ignores :
    Ignores (withPrivateHeader privateHeader privateHeaderRead) (maybeHandshake (N := N)) := by
  intro stream
  have start := establishSession_ignores privateHeader privateHeaderRead stream
  have cipher : (withPrivateHeader privateHeader privateHeaderRead stream).cipherState =
      stream.cipherState := rfl
  have failure : (withPrivateHeader privateHeader privateHeaderRead stream).handshakeFailure =
      stream.handshakeFailure := rfl
  simp only [maybeHandshake, cipher, failure]
  cases stream.cipherState with
  | some cipherState => rfl
  | none =>
      cases stream.handshakeFailure with
      | some failure => rfl
      | none =>
          simp only [start]
          cases establishSession stream with
          | mk outcome after => cases outcome <;> rfl

theorem acceptPlaintext_ignores (plaintext : Bytes) :
    Ignores (withPrivateHeader privateHeader privateHeaderRead)
      (acceptPlaintext (N := N) plaintext) := by
  refine Ignores.bind (Ignores.modify fun _ => rfl) fun _ => ?_
  split
  · exact Ignores.throw _
  · refine Ignores.bind (Ignores.modify fun _ => rfl) fun _ => ?_
    split
    · exact Ignores.throw _
    · exact Ignores.modify fun _ => rfl

theorem readNextPacket_ignores :
    Ignores (withPrivateHeader privateHeader privateHeaderRead) (readNextPacket (N := N)) := by
  refine Ignores.bind (maybeHandshake_ignores _ _) fun cipherState => ?_
  refine Ignores.bind (readUnsignedShort_ignores _ _) fun packetLength => ?_
  split
  · exact Ignores.throw _
  · refine Ignores.bind (readInputOr_ignores _ _ packetLength _) fun encrypted => ?_
    obtain ⟨decrypted, next⟩ := cipherState.decryptWithAd encrypted
    refine Ignores.bind (Ignores.modify fun _ => rfl) fun _ => ?_
    cases decrypted with
    | none => exact Ignores.throw _
    | some plaintext => exact acceptPlaintext_ignores _ _ plaintext

end Ignores

/-! ## Skipping to the next user byte -/

theorem ensureLoop_drained (fuel : Nat) {stream : MailDecryptingStream N}
    (drained : stream.currentUserBytesIndex = stream.currentUserBytesLength) :
    ensureLoop (fuel + 1) stream = (readNextPacket >>= fun _ => ensureLoop fuel) stream :=
  if_pos drained

theorem ensureLoop_ready (fuel : Nat) {stream : MailDecryptingStream N}
    (ready : stream.currentUserBytesIndex ≠ stream.currentUserBytesLength) :
    ensureLoop (fuel + 1) stream = (.ok (stream.currentUserBytesIndex != -1), stream) :=
  if_neg ready

/-- More fuel than the input has bytes changes nothing. -/
theorem ensureLoop_fuel (fuel extra : Nat) (stream : MailDecryptingStream N)
    (enough : stream.input.length < fuel) :
    ensureLoop (fuel + extra) stream = ensureLoop fuel stream := by
  induction fuel generalizing stream with
  | zero => omega
  | succ fuel ih =>
      rw [Nat.succ_add]
      by_cases drained : stream.currentUserBytesIndex = stream.currentUserBytesLength
      · rw [ensureLoop_drained _ drained, ensureLoop_drained _ drained]
        cases ran : readNextPacket stream with
        | mk outcome after =>
            cases outcome with
            | error e => rw [bind_error ran, bind_error ran]
            | ok value =>
                have consumed := (readNextPacket_consumes ran).1
                rw [bind_ok ran, bind_ok ran]
                exact ih after (by omega)
      · rw [ensureLoop_ready _ drained, ensureLoop_ready _ drained]

theorem ensureAvailablePacket_ready {stream : MailDecryptingStream N}
    (ready : stream.currentUserBytesIndex ≠ stream.currentUserBytesLength) :
    ensureAvailablePacket stream = (.ok (stream.currentUserBytesIndex != -1), stream) := by
  rw [ensureAvailablePacket, ensureLoop_ready _ ready]

theorem ensureAvailablePacket_rejected {stream after : MailDecryptingStream N}
    {e : StreamException}
    (drained : stream.currentUserBytesIndex = stream.currentUserBytesLength)
    (rejected : readNextPacket stream = (.error e, after)) :
    ensureAvailablePacket stream = (.error e, after) := by
  rw [ensureAvailablePacket, ensureLoop_drained _ drained]
  exact bind_error rejected

theorem ensureAvailablePacket_accepted {stream after : MailDecryptingStream N}
    (drained : stream.currentUserBytesIndex = stream.currentUserBytesLength)
    (accepted : readNextPacket stream = (.ok (), after)) :
    ensureAvailablePacket stream = ensureAvailablePacket after := by
  have consumed := (readNextPacket_consumes accepted).1
  have fuel : stream.input.length =
      (after.input.length + 1) + (stream.input.length - (after.input.length + 1)) := by omega
  rw [ensureAvailablePacket, ensureLoop_drained _ drained, bind_ok accepted, fuel,
    ensureLoop_fuel _ _ after (by omega), ensureAvailablePacket]

end MailDecryptingStream

end Conclave.Mail
