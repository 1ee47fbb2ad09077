import ConclaveFormal.Mail.Delivery

/-!
# The first read

The first call parses the prologue, carves out the private header and, with its
first packet, triggers the handshake.  `Fresh` is the state it starts from; the
lemmas say what it does for every outcome of the prologue and of the handshake.
-/

set_option autoImplicit false

namespace Conclave.Mail

open Conclave.Lib

namespace MailDecryptingStream

open Attempt

variable {N : Noise}

/-! ## The prologue -/

/-- The size field of a prologue has sixteen bits. -/
theorem splitPrologue_raw_length {input raw rest : Bytes}
    (split : splitPrologue input = .ok (raw, rest)) : raw.length < 65536 := by
  unfold splitPrologue at split
  split at split
  · rename_i b1 b2 tail
    have high := b1.toNat_lt
    have low := b2.toNat_lt
    simp only at split
    split at split
    · cases split
      rw [List.length_take]
      omega
    · cases split
  · cases split

/-- Nothing has been read yet. -/
structure Fresh (stream : MailDecryptingStream N) (input : Bytes) (privateKey : N.PrivateKey) :
    Prop where
  input : stream.input = input
  privateKey : stream.privateKey = some privateKey
  cipherState : stream.cipherState = none
  handshakeFailure : stream.handshakeFailure = none
  prologue : stream.prologue = none
  privateHeaderRead : stream.privateHeaderRead = false
  index : stream.currentUserBytesIndex = 0
  length : stream.currentUserBytesLength = 0

theorem fresh_new (input : Bytes) (privateKey : N.PrivateKey) :
    Fresh (new input (some privateKey)) input privateKey :=
  ⟨rfl, rfl, rfl, rfl, rfl, rfl, rfl, rfl⟩

/-- The stream once the prologue has been parsed and the handshake has been
done; `input` is what is behind them. -/
def inSession (stream : MailDecryptingStream N) (prologue : Prologue) (sender : N.PublicKey)
    (key : N.CipherKey) (input : Bytes) : MailDecryptingStream N :=
  { stream with
    input := input
    privateKey := none
    cipherState := some ⟨key, 0⟩
    senderPublicKey := some sender
    privateHeaderRead := true
    prologue := some prologue }

/-- Two drained streams with the same next packet find the same next byte. -/
theorem ensureAvailablePacket_congr {first second : MailDecryptingStream N}
    (drained₁ : first.currentUserBytesIndex = first.currentUserBytesLength)
    (drained₂ : second.currentUserBytesIndex = second.currentUserBytesLength)
    (same : readNextPacket first = readNextPacket second) :
    ensureAvailablePacket first = ensureAvailablePacket second := by
  cases ran : readNextPacket second with
  | mk outcome after =>
      cases outcome with
      | error e =>
          rw [ensureAvailablePacket_rejected drained₁ (same.trans ran),
            ensureAvailablePacket_rejected drained₂ ran]
      | ok value =>
          rw [ensureAvailablePacket_accepted drained₁ (same.trans ran),
            ensureAvailablePacket_accepted drained₂ ran]

theorem receivePrivateHeader_congr {first second : MailDecryptingStream N}
    (same : ensureAvailablePacket first = ensureAvailablePacket second) :
    receivePrivateHeader first = receivePrivateHeader second := by
  have byte : readUserByte first = readUserByte second := bind_congr _ same
  have headerByte : readHeaderByte first = readHeaderByte second := bind_congr _ byte
  have int : readInt first = readInt second := bind_congr _ headerByte
  exact bind_congr _ int

/-- The stream as the first read leaves it before it looks for the private
header. -/
def afterPrologue (stream : MailDecryptingStream N) (prologue : Prologue) (rest : Bytes) :
    MailDecryptingStream N :=
  { stream with privateHeaderRead := true, input := rest, prologue := some prologue }

/-- What a failure behind the prologue does to the flag. -/
def headerFailed (e : StreamException) : Reading N Unit := do
  modify fun stream => { stream with privateHeaderRead := false }
  match e with
  | .eof => error .privateHeaderEnd
  | e => throw e

/-- The exception as the caller of the first read sees it. -/
def headerException : StreamException → StreamException
  | .eof => .mailDecryption .privateHeaderEnd
  | e => e

theorem headerFailed_eq (e : StreamException) (stream : MailDecryptingStream N) :
    headerFailed e stream =
      (.error (headerException e), { stream with privateHeaderRead := false }) := by
  cases e <;> rfl

theorem maybeReadPrivateHeader_unread {stream : MailDecryptingStream N}
    (unread : stream.privateHeaderRead = false) :
    maybeReadPrivateHeader stream =
      (do
        let prologue ← getPrologue
        if prologue.protocol.ordinal < MailProtocol.senderKeyTransmittedV2.ordinal then
          Attempt.modify fun stream => { stream with privateHeader := none }
        else handle receivePrivateHeader headerFailed : Reading N Unit)
        (stream.withPrivateHeader stream.privateHeader true) := by
  have first : maybeReadPrivateHeader stream = readPrivateHeader stream := by
    simp [maybeReadPrivateHeader, unread]
  rw [first]
  unfold readPrivateHeader
  rw [modify_bind]
  rfl

theorem maybeReadPrivateHeader_fresh {stream : MailDecryptingStream N} {input raw rest : Bytes}
    {privateKey : N.PrivateKey} {prologue : Prologue} (fresh : Fresh stream input privateKey)
    (split : splitPrologue input = .ok (raw, rest)) (parsed : parsePrologue raw = .ok prologue) :
    maybeReadPrivateHeader stream =
      (if prologue.protocol.ordinal < MailProtocol.senderKeyTransmittedV2.ordinal then
        Attempt.modify fun stream => { stream with privateHeader := none }
      else handle receivePrivateHeader headerFailed : Reading N Unit)
        (stream.afterPrologue prologue rest) := by
  rw [maybeReadPrivateHeader_unread fresh.privateHeaderRead]
  have flaggedSplit : splitPrologue (stream.withPrivateHeader stream.privateHeader true).input =
      .ok (raw, rest) := (congrArg splitPrologue fresh.input).trans split
  have unknown : (stream.withPrivateHeader stream.privateHeader true).prologue = none :=
    fresh.prologue
  have got := getPrologue_parse unknown flaggedSplit
  simp only [parsed] at got
  rw [bind_ok got]
  rfl

/-- A prologue that is cut off uses up the input. -/
theorem maybeReadPrivateHeader_truncated {stream : MailDecryptingStream N} {input : Bytes}
    {privateKey : N.PrivateKey} {failure : DecryptionFailure}
    (fresh : Fresh stream input privateKey) (split : splitPrologue input = .error failure) :
    maybeReadPrivateHeader stream = (.error (.mailDecryption failure),
      { stream with privateHeaderRead := true, input := [] }) := by
  rw [maybeReadPrivateHeader_unread fresh.privateHeaderRead]
  rw [← fresh.input] at split
  exact bind_error (getPrologue_truncated fresh.prologue split)

/-- A prologue that does not parse is skipped, and the flag stays set. -/
theorem maybeReadPrivateHeader_unparsed {stream : MailDecryptingStream N}
    {input raw rest : Bytes} {privateKey : N.PrivateKey} {e : StreamException}
    (fresh : Fresh stream input privateKey) (split : splitPrologue input = .ok (raw, rest))
    (unparsed : parsePrologue raw = .error e) :
    maybeReadPrivateHeader stream =
      (.error e, { stream with privateHeaderRead := true, input := rest }) := by
  rw [maybeReadPrivateHeader_unread fresh.privateHeaderRead]
  rw [← fresh.input] at split
  have unknown : ({ stream with privateHeaderRead := true } :
      MailDecryptingStream N).prologue = none := fresh.prologue
  have got := getPrologue_parse unknown split
  rw [unparsed] at got
  exact bind_error got

/-- The handshake behind the prologue. -/
theorem maybeHandshake_fresh {stream : MailDecryptingStream N} {input message : Bytes}
    {privateKey : N.PrivateKey} {prologue : Prologue} {sender : N.PublicKey} {key : N.CipherKey}
    (frames : Bytes) (fresh : Fresh stream input privateKey)
    (messageLength : message.length = prologue.protocol.handshakeLength)
    (opened : N.readMessage privateKey prologue.raw message = .ok (sender, key)) :
    maybeHandshake (stream.afterPrologue prologue (message ++ frames)) =
      (.ok ⟨key, 0⟩, stream.inSession prologue sender key frames) := by
  have pending : (stream.afterPrologue prologue (message ++ frames)).cipherState = none :=
    fresh.cipherState
  have first := maybeHandshake_first pending fresh.handshakeFailure rfl fresh.privateKey
  have buffer : (stream.afterPrologue prologue (message ++ frames)).input =
      message ++ frames := rfl
  rw [buffer, ← messageLength, if_neg (by rw [List.length_append]; omega), List.take_left,
    List.drop_left, opened] at first
  exact first

/-- A handshake that succeeds has found its message behind the prologue. -/
theorem maybeHandshake_inverted {stream after : MailDecryptingStream N} {input rest : Bytes}
    {privateKey : N.PrivateKey} {prologue : Prologue} {cipherState : CipherState N}
    (fresh : Fresh stream input privateKey)
    (established : maybeHandshake (stream.afterPrologue prologue rest) =
      (.ok cipherState, after)) :
    ∃ message frames sender key, rest = message ++ frames ∧
      message.length = prologue.protocol.handshakeLength ∧
      N.readMessage privateKey prologue.raw message = .ok (sender, key) ∧
      after = stream.inSession prologue sender key frames := by
  have pending : (stream.afterPrologue prologue rest).cipherState = none := fresh.cipherState
  have first := maybeHandshake_first pending fresh.handshakeFailure rfl fresh.privateKey
  rw [established] at first
  have buffer : (stream.afterPrologue prologue rest).input = rest := rfl
  rw [buffer] at first
  split at first
  · cases first
  · rename_i complete
    cases opened : N.readMessage privateKey prologue.raw
        (rest.take prologue.protocol.handshakeLength) with
    | error e =>
        rw [opened] at first
        cases first
    | ok session =>
        obtain ⟨sender, key⟩ := session
        rw [opened] at first
        refine ⟨_, rest.drop prologue.protocol.handshakeLength, sender, key,
          (List.take_append_drop _ rest).symm, ?_, opened, (Prod.mk.inj first).2⟩
        rw [List.length_take]
        omega

/-- Doing the handshake first makes no difference to the private header. -/
theorem receivePrivateHeader_fresh {stream : MailDecryptingStream N} {input message : Bytes}
    {privateKey : N.PrivateKey} {prologue : Prologue} {sender : N.PublicKey} {key : N.CipherKey}
    (frames : Bytes) (fresh : Fresh stream input privateKey)
    (messageLength : message.length = prologue.protocol.handshakeLength)
    (opened : N.readMessage privateKey prologue.raw message = .ok (sender, key)) :
    receivePrivateHeader (stream.afterPrologue prologue (message ++ frames)) =
      receivePrivateHeader (stream.inSession prologue sender key frames) := by
  have drained : stream.currentUserBytesIndex = stream.currentUserBytesLength :=
    fresh.index.trans fresh.length.symm
  have established := maybeHandshake_fresh frames fresh messageLength opened
  have same := readNextPacket_afterHandshake established rfl
  exact receivePrivateHeader_congr (ensureAvailablePacket_congr drained drained same)

theorem parsePrologue_raw {raw : Bytes} {prologue : Prologue}
    (parsed : parsePrologue raw = .ok prologue) : prologue.raw = raw := by
  unfold parsePrologue at parsed
  split at parsed
  · cases parsed
  · split at parsed
    · cases parsed
    · split at parsed
      · cases parsed
      · cases parsed
        rfl

theorem maybeHandshake_refused {stream : MailDecryptingStream N} {prologue : Prologue}
    {privateKey : N.PrivateKey} (pending : stream.cipherState = none)
    (untried : stream.handshakeFailure = none) (known : stream.prologue = some prologue)
    (provided : stream.privateKey = some privateKey)
    (refused : ∀ session, N.readMessage privateKey prologue.raw
      (stream.input.take prologue.protocol.handshakeLength) ≠ .ok session) :
    ∃ e after, maybeHandshake stream = (.error e, after) := by
  rw [maybeHandshake_first pending untried known provided]
  split
  · exact ⟨_, _, rfl⟩
  · cases opened : N.readMessage privateKey prologue.raw
        (stream.input.take prologue.protocol.handshakeLength) with
    | error e => exact ⟨_, _, rfl⟩
    | ok session => exact absurd opened (refused session)

/-- Without a session there is neither a private header nor a first packet. -/
theorem maybeReadPrivateHeader_noSession {stream after : MailDecryptingStream N}
    {input raw rest : Bytes} {privateKey : N.PrivateKey} {prologue : Prologue}
    {e : StreamException} (fresh : Fresh stream input privateKey)
    (split : splitPrologue input = .ok (raw, rest)) (parsed : parsePrologue raw = .ok prologue)
    (failed : maybeHandshake (stream.afterPrologue prologue rest) = (.error e, after)) :
    maybeReadPrivateHeader stream =
        (.error (headerException e), { after with privateHeaderRead := false }) ∨
      maybeReadPrivateHeader stream =
          (.ok (), (stream.afterPrologue prologue rest).withPrivateHeader none true) ∧
        Yields ((stream.afterPrologue prologue rest).withPrivateHeader none true) []
          (.failure e (after.withPrivateHeader none true)) := by
  have first := maybeReadPrivateHeader_fresh fresh split parsed
  have drained : stream.currentUserBytesIndex = stream.currentUserBytesLength :=
    fresh.index.trans fresh.length.symm
  have rejected := readNextPacket_noSession failed
  by_cases old : prologue.protocol.ordinal < MailProtocol.senderKeyTransmittedV2.ordinal
  · right
    rw [if_pos old] at first
    refine ⟨first, Yields.rejected drained ?_⟩
    rw [readNextPacket_ignores none true, rejected]
  · left
    rw [if_neg old] at first
    have received : receivePrivateHeader (stream.afterPrologue prologue rest) =
        (.error e, after) :=
      bind_error (bind_error (bind_error (bind_error
        (ensureAvailablePacket_rejected drained rejected))))
    rw [first, handle_error received, headerFailed_eq]

/-! ## Calls behind the first -/

/-- Calls before the private header has been read are the same calls after. -/
theorem read_after_header {stream after : MailDecryptingStream N} (request : ReadRequest)
    (first : maybeReadPrivateHeader stream = (.ok (), after))
    (headerRead : after.privateHeaderRead = true) :
    read request stream = read request after := by
  have skipped : maybeReadPrivateHeader after = (.ok (), after) := by
    simp [maybeReadPrivateHeader, headerRead]
  unfold read
  rw [bind_ok first, bind_ok skipped]

theorem header_fresh {stream : MailDecryptingStream N} {input raw rest : Bytes}
    {privateKey : N.PrivateKey} {prologue : Prologue} (fresh : Fresh stream input privateKey)
    (split : splitPrologue input = .ok (raw, rest)) (parsed : parsePrologue raw = .ok prologue) :
    (header stream).1 = .ok prologue.header := by
  rw [← fresh.input] at split
  have got := getPrologue_parse fresh.prologue split
  rw [parsed] at got
  unfold header
  rw [bind_ok got]
  rfl

theorem header_known {stream : MailDecryptingStream N} {prologue : Prologue}
    (known : stream.prologue = some prologue) : header stream = (.ok prologue.header, stream) :=
  bind_ok (getPrologue_known known)

end MailDecryptingStream

end Conclave.Mail
