import ConclaveFormal.Mail.RoundTrip

/-!
# The post office

`encryptMail` writes a whole mail into a `ByteArrayOutputStream`, and
`decryptMail` is its counterpart.  Nothing on the way checks that the prologue
fits the sixteen bits of its size, so a mail comes back exactly when the
prologue fits or the mail could not be produced in the first place.
-/

set_option autoImplicit false

namespace Conclave.Mail

open Conclave.Lib

/-! ## Topics -/

inductive TopicError where
  | blank
  | tooLong (length : Nat)
  | invalidCharacter (index : Nat)
  deriving DecidableEq, Repr

def TopicError.message : TopicError → String
  | blank => "Topic must not be blank"
  | tooLong length =>
      "Topic length must be less than 256 characters, is " ++ toString length
  | invalidCharacter index =>
      "Character " ++ toString index ++ " of the topic is not a character, digit or -"

def checkTopicCharacters (isLetterOrDigit : UInt16 → Bool) (index : Nat) :
    JString → Except TopicError Unit
  | [] => .ok ()
  | char :: rest =>
      if isLetterOrDigit char || char == 45 then
        checkTopicCharacters isLetterOrDigit (index + 1) rest
      else .error (.invalidCharacter index)

def checkTopic (isLetterOrDigit isWhitespace : UInt16 → Bool) (topic : JString) :
    Except TopicError Unit :=
  if topic.all isWhitespace then .error .blank
  else if topic.length < 256 then checkTopicCharacters isLetterOrDigit 0 topic
  else .error (.tooLong topic.length)

theorem checkTopic_length {isLetterOrDigit isWhitespace : UInt16 → Bool} {topic : JString}
    (checked : checkTopic isLetterOrDigit isWhitespace topic = .ok ()) : topic.length < 256 := by
  unfold checkTopic at checked
  split at checked
  · cases checked
  · split at checked
    · assumption
    · cases checked

theorem encodeUtf_length_le (topic : JString) : (encodeUtf topic).length ≤ 3 * topic.length := by
  unfold encodeUtf
  induction topic with
  | nil => simp
  | cons unit rest ih =>
      have one : (encodeUnit unit).length ≤ 3 := by
        simp only [encodeUnit]
        split
        · simp
        · split <;> simp
      rw [List.flatMap_cons, List.length_append, List.length_cons]
      omega

/-! ## Encrypting -/

def packetOverhead : Nat := maxPacketLen - maxPacketPayloadLength

/-- The initial size of the output buffer, an estimate: the private header and
the terminator are left out, and the packet count and overhead are too low. -/
def getExpectedSize (header : EnclaveMailHeaderImpl) (minSize : Int) (body : Bytes) : Int :=
  let prologueSize : Int := 1 + header.encodedSize
  let payloadSize := max (body.length : Int) minSize
  let packetCount := payloadSize / maxPacketPayloadLength + 1
  wrap32 (2 + prologueSize + MailProtocol.senderKeyTransmittedV2.handshakeLength +
    packetCount * packetOverhead + payloadSize)

/-- `minSize` is what the policy returned for this body, and `maxArrayLength`
the largest array the virtual machine can allocate. -/
def encryptMail {N : Noise} (destination : N.PublicKey) (sender : N.PrivateKey)
    (ephemeral : N.Ephemeral) (maxArrayLength : Nat) (header : EnclaveMailHeaderImpl)
    (minSize : Int) (body : Bytes) (privateHeader : Option Bytes) :
    Except WriteException Bytes :=
  let expectedSize := getExpectedSize header minSize body
  if expectedSize < 0 then .error .illegalArgument
  else if maxArrayLength < expectedSize then .error .outputStream
  else
    (encrypt destination header privateHeader sender minSize ephemeral maxArrayLength
      [.array body 0 body.length]).map MailEncryptingStream.out

/-- The buffer for the mail can be allocated and grown to its exact size. -/
def Producible (maxArrayLength : Nat) (header : EnclaveMailHeaderImpl) (minSize : Nat)
    (body : Bytes) (privateHeader : Option Bytes) : Prop :=
  0 ≤ getExpectedSize header minSize body ∧
    getExpectedSize header minSize body ≤ maxArrayLength ∧
    mailSize header minSize (plainBytes privateHeader body).length ≤ maxArrayLength

instance (maxArrayLength : Nat) (header : EnclaveMailHeaderImpl) (minSize : Nat) (body : Bytes)
    (privateHeader : Option Bytes) :
    Decidable (Producible maxArrayLength header minSize body privateHeader) :=
  inferInstanceAs (Decidable (_ ∧ _ ∧ _))

theorem written_wholeBody (body : Bytes) :
    ([WriteRequest.array body 0 body.length]).flatMap WriteRequest.written = body := by
  simp [WriteRequest.written]

section Encrypt

variable {N : Noise} {destination : N.PublicKey} {sender : N.PrivateKey}
  {ephemeral : N.Ephemeral} {maxArrayLength : Nat} {header : EnclaveMailHeaderImpl}
  {minSize : Nat} {body : Bytes} {privateHeader : Option Bytes}

theorem encryptMail_ok {bytes : Bytes}
    (run : encryptMail destination sender ephemeral maxArrayLength header minSize body
      privateHeader = .ok bytes) :
    0 ≤ getExpectedSize header minSize body ∧
      getExpectedSize header minSize body ≤ maxArrayLength ∧
      ∃ mail, encrypt destination header privateHeader sender minSize ephemeral maxArrayLength
        [.array body 0 body.length] = .ok mail ∧ mail.out = bytes := by
  unfold encryptMail at run
  simp only at run
  split at run
  · cases run
  · split at run
    · cases run
    · refine ⟨by omega, by omega, ?_⟩
      cases inner : encrypt destination header privateHeader sender minSize ephemeral
          maxArrayLength [.array body 0 body.length] with
      | error e => simp [inner, Except.map] at run
      | ok mail =>
          simp only [inner, Except.map, Except.ok.injEq] at run
          exact ⟨mail, rfl, run⟩

/-- `encryptMail` throws exactly when the buffer does not suffice. -/
theorem encryptMail_ok_iff (destination : N.PublicKey) (sender : N.PrivateKey)
    (ephemeral : N.Ephemeral) (body : Bytes) (privateHeader : Option Bytes)
    (minSizeRange : minSize < 2 ^ 31) (arrayRange : maxArrayLength < 2 ^ 31)
    (topicFits : (encodeUtf header.topic).length ≤ 65535) :
    (∃ bytes, encryptMail destination sender ephemeral maxArrayLength header minSize body
      privateHeader = .ok bytes) ↔
      Producible maxArrayLength header minSize body privateHeader := by
  have length : (plainBytes privateHeader body).length = 4 + (privateHeader.getD []).length +
      ([WriteRequest.array body 0 body.length].flatMap WriteRequest.written).length := by
    rw [written_wholeBody]
    exact plainBytes_length privateHeader body
  constructor
  · rintro ⟨bytes, run⟩
    obtain ⟨low, high, mail, inner, _⟩ := encryptMail_ok run
    obtain ⟨size, room⟩ := encrypt_size minSizeRange arrayRange length inner
    rw [size] at room
    exact ⟨low, high, room⟩
  · rintro ⟨low, high, room⟩
    have bound := room
    unfold mailSize framesSize totalPayload flushedPayload at bound
    have valid : ∀ request ∈ [WriteRequest.array body 0 body.length],
        request.valid = true := by
      intro request member
      rw [List.mem_singleton.mp member]
      have small : body.length < 2 ^ 31 := by
        rw [plainBytes_length] at bound
        omega
      have exact : wrap32 (body.length : Int) = body.length :=
        wrap32_of_range (by omega) (by omega)
      simp [WriteRequest.valid, MailEncryptingStream.inBounds, exact]
    obtain ⟨mail, inner⟩ := encrypt_progress destination sender ephemeral minSizeRange valid
      topicFits length (by unfold totalPayload flushedPayload; omega) room
    refine ⟨mail.out, ?_⟩
    unfold encryptMail
    simp only [inner]
    rw [if_neg (by omega), if_neg (by omega)]
    rfl

end Encrypt

namespace MailDecryptingStream

open Attempt

variable {N : Noise}

/-! ## Decrypting what was sent -/

theorem Yields.readBytesLoop (fuel : Nat) {stream : MailDecryptingStream N} {body : Bytes}
    {ending : Ending N} (yields : Yields stream body ending)
    (headerRead : stream.privateHeaderRead = true) (enough : body.length < fuel) :
    (ending = .terminator ∧
        ∃ after, readBytesLoop fuel stream = (.ok body, after) ∧ Keeps stream after) ∨
      ∃ e after, ending = .failure e after ∧ readBytesLoop fuel stream = (.error e, after) := by
  induction fuel generalizing stream body with
  | zero => omega
  | succ fuel ih =>
      rcases read_step yields headerRead (.many 8192 0 8192) with
        ⟨after, ran, kept, rest, complete⟩ | ⟨_, e, after, failed, ran⟩
      · have valid : outOfBounds 8192 0 8192 = false := by decide
        simp only [readOf, valid] at ran rest
        rw [MailDecryptingStream.readBytesLoop]
        cases outcome : read (.many 8192 0 8192) stream with
        | mk result middle =>
            rw [outcome] at ran
            by_cases empty : body = []
            · subst empty
              cases result with
              | error e => cases ran
              | ok block =>
                  cases ran
                  rw [bind_ok outcome]
                  exact .inl ⟨complete.resolve_right (by decide), _, rfl, kept⟩
            · rw [if_neg (by decide), if_neg (by decide), if_neg empty] at ran rest
              cases result with
              | error e => cases ran
              | ok block =>
                  cases ran
                  rw [bind_ok outcome]
                  have shorter : (body.drop (8192 : Int).toNat).length < fuel := by
                    have positive := List.length_pos_iff.mpr empty
                    rw [List.length_drop]
                    omega
                  rcases ih rest (kept.privateHeaderRead.trans headerRead) shorter with
                    ⟨last, final, loop, keptLoop⟩ | ⟨e, final, failed, loop⟩
                  · refine .inl ⟨last, final, ?_, kept.trans keptLoop⟩
                    simp only
                    rw [bind_ok loop]
                    simp
                  · exact .inr ⟨e, final, failed, bind_error loop⟩
      · rw [MailDecryptingStream.readBytesLoop]
        exact .inr ⟨e, after, failed, bind_error ran⟩

/-- The stream with the key that `decryptMail` has just been given. -/
def withKey (input : Bytes) (privateKey : N.PrivateKey) : MailDecryptingStream N :=
  { new input none with privateKey := some privateKey, privateKeyProvided := true }

theorem fresh_withKey (input : Bytes) (privateKey : N.PrivateKey) :
    Fresh (withKey input privateKey) input privateKey :=
  ⟨rfl, rfl, rfl, rfl, rfl, rfl, rfl, rfl⟩

theorem decryptMail_eq (input : Bytes) (privateKey : N.PrivateKey) (isKdsKey : Bool) :
    decryptMail privateKey isKdsKey (new input none) = (do
      let mailBody ← readBytes
      let header ← header
      let sender ← getSenderPublicKey
      let stream ← get
      pure {
        sequenceNumber := header.sequenceNumber
        topic := header.topic
        authenticatedSender := sender
        envelope := header.envelope
        privateHeader := stream.privateHeader
        bodyAsBytes := mailBody
        kdsPrivateKey := if isKdsKey then some privateKey else none } :
        Reading N (DecryptedEnclaveMail N)) (withKey input privateKey) := by
  have keyed : setPrivateKey privateKey (new input none) =
      (.ok (), withKey input privateKey) := rfl
  rw [decryptMail, bind_ok keyed]

theorem decryptMail_mail {destination : N.PublicKey} {header : EnclaveMailHeaderImpl}
    {sender : N.PrivateKey} {ephemeral : N.Ephemeral} {minSize : Int}
    {privateHeader : Option Bytes} {body : Bytes} {mail : MailEncryptingStream N}
    {privateKey : N.PrivateKey} {senderKey : N.PublicKey}
    (layout : MailLayout destination header sender ephemeral minSize
      (plainBytes privateHeader body) mail)
    (nonnegative : 0 ≤ minSize) (headerFits : (privateHeader.getD []).length < 2 ^ 31)
    (prologueFits : prologueSize header < 65536)
    (agrees : N.readMessage privateKey layout.prologue
        (N.writeMessage destination sender ephemeral layout.prologue [0]).1 =
      .ok (senderKey, (N.writeMessage destination sender ephemeral layout.prologue [0]).2))
    (opens : Opens N (N.writeMessage destination sender ephemeral layout.prologue [0]).2 0
      (layout.packets ++ [layout.last])) (isKdsKey : Bool) :
    ∃ after, decryptMail privateKey isKdsKey (new mail.out none) =
      (.ok {
        sequenceNumber := header.sequenceNumber
        topic := header.topic
        authenticatedSender := senderKey
        envelope := emptyToNull header.envelope
        privateHeader := emptyToNull privateHeader
        bodyAsBytes := body
        kdsPrivateKey := if isKdsKey then some privateKey else none }, after) := by
  have fresh := fresh_withKey mail.out privateKey
  rw [← List.append_nil mail.out] at fresh
  obtain ⟨opened, first, headerRead, headerEq, prologue, established, senderEq, yields⟩ :=
    maybeReadPrivateHeader_mail layout nonnegative headerFits prologueFits agrees opens fresh
  rw [List.append_nil] at first
  have size : body.length ≤ mail.out.length := by
    have payload := userBytes_le_payload layout.packets
    rw [layout.user, plainBytes_length] at payload
    rw [layout.out, List.length_append, framesFrom_length, List.map_append, List.sum_append]
    omega
  obtain ⟨_, final, loop, kept⟩ := (yields.readBytesLoop
    (mail.out.length + maxPacketPlaintextLength + 1) headerRead (by omega)).resolve_right (by
      rintro ⟨_, _, impossible, _⟩
      cases impossible)
  have read : readBytes (withKey mail.out privateKey) = (.ok body, final) := by
    have start : readBytes (withKey mail.out privateKey) = readBytesLoop
        (mail.out.length + maxPacketPlaintextLength + 1) (withKey mail.out privateKey) := rfl
    rw [start, ← loop, readBytesLoop]
    exact bind_congr _ (read_after_header _ first headerRead)
  have known := header_known (kept.prologue _ prologue)
  obtain ⟨cipherState, session⟩ := Option.isSome_iff_exists.mp established
  obtain ⟨sameSender, stillOpen⟩ := kept.session cipherState session
  obtain ⟨lastState, lastSession⟩ := Option.isSome_iff_exists.mp stillOpen
  have senderRead : getSenderPublicKey final = (.ok senderKey, final) := by
    unfold getSenderPublicKey
    rw [bind_ok (maybeHandshake_established lastSession), get_bind, sameSender, senderEq]
    rfl
  refine ⟨final, ?_⟩
  rw [decryptMail_eq, bind_ok read, bind_ok known, bind_ok senderRead, get_bind,
    kept.privateHeader, headerEq]
  rfl

/-! ## A prologue the handshake refuses -/

theorem read_refused {stream : MailDecryptingStream N} {input : Bytes}
    {privateKey : N.PrivateKey} (fresh : Fresh stream input privateKey)
    (refused : ∀ raw rest prologue, splitPrologue input = .ok (raw, rest) →
      parsePrologue raw = .ok prologue → ∀ session, N.readMessage privateKey raw
        (rest.take prologue.protocol.handshakeLength) ≠ .ok session) :
    ∃ e after, read (.many 8192 0 8192) stream = (.error e, after) := by
  unfold read
  cases split : splitPrologue input with
  | error failure =>
      rw [bind_error (maybeReadPrivateHeader_truncated fresh split)]
      exact ⟨_, _, rfl⟩
  | ok pair =>
      obtain ⟨raw, rest⟩ := pair
      cases parsed : parsePrologue raw with
      | error e =>
          rw [bind_error (maybeReadPrivateHeader_unparsed fresh split parsed)]
          exact ⟨_, _, rfl⟩
      | ok prologue =>
          have rawEq := parsePrologue_raw parsed
          have pending : (stream.afterPrologue prologue rest).cipherState = none :=
            fresh.cipherState
          obtain ⟨e, after, failed⟩ := maybeHandshake_refused pending fresh.handshakeFailure rfl
            fresh.privateKey (by rw [rawEq]; exact refused raw rest prologue split parsed)
          rcases maybeReadPrivateHeader_noSession fresh split parsed failed with
            first | ⟨first, yields⟩
          · exact ⟨_, _, bind_error first⟩
          · rw [bind_ok first]
            exact ⟨_, _, bind_error (bind_error yields.ensure_failure)⟩

theorem readBytes_throws {stream after : MailDecryptingStream N} {e : StreamException}
    (failed : read (.many 8192 0 8192) stream = (.error e, after)) :
    readBytes stream = (.error e, after) := by
  rw [readBytes]
  generalize stream.input.length + maxPacketPlaintextLength = blocks
  rw [readBytesLoop]
  exact bind_error failed

theorem decryptMail_refused {input : Bytes} {privateKey : N.PrivateKey}
    (refused : ∀ raw rest prologue, splitPrologue input = .ok (raw, rest) →
      parsePrologue raw = .ok prologue → ∀ session, N.readMessage privateKey raw
        (rest.take prologue.protocol.handshakeLength) ≠ .ok session) (isKdsKey : Bool) :
    ∃ e after, decryptMail privateKey isKdsKey (new input none) = (.error e, after) := by
  obtain ⟨e, after, failed⟩ := read_refused (fresh_withKey input privateKey) refused
  refine ⟨e, after, ?_⟩
  rw [decryptMail_eq]
  exact bind_error (readBytes_throws failed)

end MailDecryptingStream

/-! ## When a mail comes back -/

/-- Where a reader that keeps sixteen bits of the size cuts the prologue. -/
def cutAt (prologue : Bytes) : Nat := prologue.length % 65536

/-- The part of a prologue behind the cut is read as the handshake message, and
the key does not accept it as one for the part before the cut. -/
def RefusesCut (N : Noise) (privateKey : N.PrivateKey) (prologue : Bytes) : Prop :=
  ∀ session, N.readMessage privateKey (prologue.take (cutAt prologue))
    ((prologue.drop (cutAt prologue)).take
      MailProtocol.senderKeyTransmittedV2.handshakeLength) ≠ .ok session

section Recoverable

open MailDecryptingStream

variable {N : Noise} {destination : N.PublicKey} {sender : N.PrivateKey}
  {ephemeral : N.Ephemeral} {maxArrayLength : Nat} {header : EnclaveMailHeaderImpl}
  {minSize : Nat} {body : Bytes} {privateHeader : Option Bytes} {privateKey : N.PrivateKey}

/-- Only the low sixteen bits of the size are written, whatever the prologue. -/
theorem splitPrologue_cut (prologue rest : Bytes) :
    splitPrologue (writeShort prologue.length ++ prologue ++ rest) =
      .ok (prologue.take (cutAt prologue), prologue.drop (cutAt prologue) ++ rest) := by
  have within : cutAt prologue ≤ prologue.length := Nat.mod_le _ _
  have size : (UInt8.ofNat (prologue.length / 256)).toNat * 256 +
      (UInt8.ofNat prologue.length).toNat = cutAt prologue := by
    rw [UInt8.toNat_ofNat', UInt8.toNat_ofNat', cutAt]
    omega
  rw [writeShort_eq]
  change splitPrologue (_ :: _ :: (prologue ++ rest)) = _
  simp only [splitPrologue, size, List.length_append]
  rw [if_pos (by omega), List.take_append_of_le_length within,
    List.drop_append_of_le_length within]

/-- The recipient gets back what was sent, empty fields as absent ones. -/
def Recovers (header : EnclaveMailHeaderImpl) (body : Bytes) (privateHeader : Option Bytes)
    (privateKey : N.PrivateKey) (bytes : Bytes) : Prop :=
  ∃ mail after, decryptMail privateKey false (new bytes none) = (.ok mail, after) ∧
    mail.sequenceNumber = header.sequenceNumber ∧ mail.topic = header.topic ∧
    mail.envelope = emptyToNull header.envelope ∧ mail.bodyAsBytes = body ∧
    mail.privateHeader = emptyToNull privateHeader

/-- A prologue that outgrows its size field is read back too short, and the
handshake does not accept what is behind the cut. -/
theorem not_recovers_of_oversized (oversized : 65535 < prologueSize header)
    (refuses : ∀ prologue, computePrologue .senderKeyTransmittedV2 header = .ok prologue →
      RefusesCut N privateKey prologue) {bytes : Bytes}
    (run : encryptMail destination sender ephemeral maxArrayLength header minSize body
      privateHeader = .ok bytes) : ¬ Recovers header body privateHeader privateKey bytes := by
  rintro ⟨mail, after, decrypted, _⟩
  obtain ⟨_, _, sent, inner, rfl⟩ := encryptMail_ok run
  obtain ⟨layout⟩ := encrypt_layout inner
  have size := computePrologue_length layout.computed
  have cut := splitPrologue_cut layout.prologue
    ((N.writeMessage destination sender ephemeral layout.prologue [0]).1 ++
      framesFrom N (N.writeMessage destination sender ephemeral layout.prologue [0]).2 0
        (layout.packets ++ [layout.last]))
  rw [← List.append_assoc, ← layout.out] at cut
  have refused : ∀ raw rest prologue, splitPrologue sent.out = .ok (raw, rest) →
      parsePrologue raw = .ok prologue → ∀ session, N.readMessage privateKey raw
        (rest.take prologue.protocol.handshakeLength) ≠ .ok session := by
    intro raw rest prologue split parsed session opened
    rw [cut, Except.ok.injEq, Prod.mk.injEq] at split
    obtain ⟨rfl, rfl⟩ := split
    -- The handshake message is looked for in what the cut left of the prologue.
    have inside : MailProtocol.senderKeyTransmittedV2.handshakeLength ≤
        (layout.prologue.drop (cutAt layout.prologue)).length := by
      rw [List.length_drop, cutAt, MailProtocol.handshakeLength]
      omega
    rw [parsePrologue_take_protocol layout.computed parsed,
      List.take_append_of_le_length inside] at opened
    exact refuses layout.prologue layout.computed session opened
  obtain ⟨e, failed, thrown⟩ := decryptMail_refused refused false
  rw [thrown] at decrypted
  cases decrypted

/-- Every mail the post office hands out comes back exactly when its prologue
fits the size field, or when no mail is handed out. -/
theorem encryptMail_recovers_iff {isLetterOrDigit isWhitespace : UInt16 → Bool}
    (validTopic : checkTopic isLetterOrDigit isWhitespace header.topic = .ok ())
    (minSizeRange : minSize < 2 ^ 31) (arrayRange : maxArrayLength < 2 ^ 31)
    (decrypts : Decrypts N)
    (agrees : ∀ prologue, computePrologue .senderKeyTransmittedV2 header = .ok prologue →
      N.readMessage privateKey prologue
          (N.writeMessage destination sender ephemeral prologue [0]).1 =
        .ok (N.publicKey sender,
          (N.writeMessage destination sender ephemeral prologue [0]).2))
    (refuses : ∀ prologue, computePrologue .senderKeyTransmittedV2 header = .ok prologue →
      65535 < prologue.length → RefusesCut N privateKey prologue) :
    (∀ bytes, encryptMail destination sender ephemeral maxArrayLength header minSize body
        privateHeader = .ok bytes → Recovers header body privateHeader privateKey bytes) ↔
      (prologueSize header ≤ 65535 ∨
        ¬ Producible maxArrayLength header minSize body privateHeader) := by
  have short := checkTopic_length validTopic
  have encoded := encodeUtf_length_le header.topic
  have topicFits : (encodeUtf header.topic).length ≤ 65535 := by omega
  have produced := encryptMail_ok_iff destination sender ephemeral body privateHeader
    minSizeRange arrayRange topicFits
  constructor
  · intro recovers
    by_contra bad
    rw [not_or, not_not] at bad
    obtain ⟨oversized, producible⟩ := bad
    obtain ⟨bytes, run⟩ := produced.mpr producible
    have size : 65535 < prologueSize header := by omega
    exact not_recovers_of_oversized size (fun prologue computed => refuses prologue computed
      (by rwa [computePrologue_length computed])) run (recovers bytes run)
  · rintro fits bytes run
    obtain ⟨_, _, sent, inner, rfl⟩ := encryptMail_ok run
    have producible := produced.mp ⟨_, run⟩
    have prologueFits : prologueSize header < 65536 := by
      rcases fits with small | impossible
      · omega
      · exact absurd producible impossible
    have headerFits : (privateHeader.getD []).length < 2 ^ 31 := by
      have room := producible.2.2
      unfold mailSize framesSize totalPayload flushedPayload at room
      rw [plainBytes_length] at room
      omega
    obtain ⟨layout⟩ := encrypt_layout inner
    rw [written_wholeBody] at layout
    obtain ⟨after, decrypted⟩ := decryptMail_mail layout (Int.natCast_nonneg _) headerFits
      prologueFits (agrees layout.prologue layout.computed) (fun _ _ _ => decrypts _ _ _) false
    exact ⟨_, after, decrypted, rfl, rfl, rfl, rfl, rfl⟩

end Recoverable

/-! ## A handshake with an address -/

def checksum (bytes : Bytes) : UInt8 := bytes.foldl (· + ·) 0

/-- An instance without secrecy whose handshake message names both parties and
carries a checksum of the prologue it was made for. -/
def addressedNoise : Noise where
  PrivateKey := UInt8
  PublicKey := UInt8
  Ephemeral := Unit
  CipherKey := openNoise.CipherKey
  publicKey := id
  writeMessage destination sender _ prologue payload :=
    (sender :: destination :: checksum prologue :: List.replicate 93 0 ++ payload, ())
  readMessage privateKey prologue message :=
    match message with
    | sender :: destination :: check :: _ =>
        if destination = privateKey ∧ check = checksum prologue then .ok (sender, ())
        else .error .badTag
    | _ => .error .other
  encrypt := openNoise.encrypt
  decrypt := openNoise.decrypt
  writeMessage_length := by
    intro _ _ _ _ payload
    simp only [List.length_append, List.length_cons, List.length_replicate]
  encrypt_length := openNoise.encrypt_length
  decrypt_length := openNoise.decrypt_length

theorem addressedNoise_decrypts : Decrypts addressedNoise := openNoise_decrypts

theorem addressedNoise_agrees (destination sender : UInt8) (prologue : Bytes) :
    addressedNoise.readMessage destination prologue
        (addressedNoise.writeMessage destination sender () prologue [0]).1 =
      .ok (addressedNoise.publicKey sender,
        (addressedNoise.writeMessage destination sender () prologue [0]).2) := by
  simp [addressedNoise]

/-- A message that is addressed to someone else is refused. -/
theorem addressedNoise_refuses {privateKey : UInt8} {prologue message : Bytes}
    (elsewhere : message[1]? ≠ some privateKey) (session : UInt8 × Unit) :
    addressedNoise.readMessage privateKey prologue message ≠ .ok session := by
  intro opened
  match message with
  | [] | [_] | [_, _] => cases opened
  | sender :: destination :: check :: rest =>
      simp only [addressedNoise] at opened
      split at opened
      · rename_i accepted
        exact elsewhere (congrArg some accepted.1)
      · cases opened

private def isLetter (char : UInt16) : Bool := decide (97 ≤ char ∧ char ≤ 122)

private def isSpace (char : UInt16) : Bool := char == 32

theorem encryptMail_recovers_smallMail :
    ∃ bytes, encryptMail (N := addressedNoise) (1 : UInt8) (2 : UInt8) () 1000
        ⟨7, [116], some [1, 2], none⟩ (5 : Nat) [3, 4] (some []) = .ok bytes ∧
      Recovers (N := addressedNoise) ⟨7, [116], some [1, 2], none⟩ [3, 4] (some [])
        (1 : UInt8) bytes := by
  have producible : Producible 1000 ⟨7, [116], some [1, 2], none⟩ 5 [3, 4] (some []) := by decide
  obtain ⟨bytes, run⟩ := (encryptMail_ok_iff (N := addressedNoise) (1 : UInt8) (2 : UInt8) ()
    [3, 4] (some []) (by decide) (by decide) (by decide)).mpr producible
  refine ⟨bytes, run, (encryptMail_recovers_iff (by decide : checkTopic isLetter isSpace [116] = _)
    (by decide) (by decide) addressedNoise_decrypts
    (fun prologue _ => addressedNoise_agrees 1 2 prologue) ?_).mpr (Or.inl (by decide)) bytes run⟩
  intro prologue computed oversized
  have small : prologueSize ⟨7, [116], some [1, 2], none⟩ = 18 := by decide
  have size := computePrologue_length computed
  omega

/-- The envelope's size is written as zero, so its first two bytes pass for the
size of the key derivation, and the handshake is looked for in the rest. -/
theorem refusesCut_envelope {envelope : Bytes} (size : envelope.length = 65536)
    (other : envelope[3]? ≠ some 1) {prologue : Bytes}
    (computed : computePrologue .senderKeyTransmittedV2 ⟨7, [116], some envelope, none⟩ =
      .ok prologue) : RefusesCut addressedNoise (1 : UInt8) prologue := by
  have topic : (encodeUtf [116]).length = 1 := by decide
  have length : cutAt prologue = 16 := by
    rw [cutAt, computePrologue_length computed]
    simp only [prologueSize, topic, Option.getD_some, size]
    decide
  have written : ∃ front : Bytes, front.length = 14 ∧ prologue = front ++ (envelope ++ [0, 0]) := by
    have utf : writeUTF [116] = .ok [0, 1, 116] := by decide
    simp only [computePrologue, EnclaveMailHeaderImpl.encodeTo, utf,
      EnclaveMailHeaderImpl.writeLengthPrefixBytes, Except.ok.injEq] at computed
    refine ⟨UInt8.ofNat MailProtocol.senderKeyTransmittedV2.ordinal ::
      (bigEndian 8 (7 : BitVec 64).toNat ++ [0, 1, 116] ++ writeShort envelope.length), ?_, ?_⟩
    · simp [writeShort]
    · rw [← computed]
      simp [writeShort, bigEndian]
  obtain ⟨front, frontLength, rfl⟩ := written
  intro session
  refine addressedNoise_refuses ?_ session
  rw [length, List.getElem?_take_of_lt (by decide), List.getElem?_drop,
    List.getElem?_append_right (by omega), frontLength, List.getElem?_append_left (by omega)]
  exact other

theorem loses_envelope {envelope : Bytes} (size : envelope.length = 65536)
    (other : envelope[3]? ≠ some 1) :
    ∃ bytes, encryptMail (N := addressedNoise) (1 : UInt8) (2 : UInt8) () 100000
        ⟨7, [116], some envelope, none⟩ (0 : Nat) [3, 4] none = .ok bytes ∧
      ¬ Recovers (N := addressedNoise) ⟨7, [116], some envelope, none⟩ [3, 4] none (1 : UInt8)
        bytes := by
  have topic : (encodeUtf [116]).length = 1 := by decide
  have expected : getExpectedSize ⟨7, [116], some envelope, none⟩ ((0 : Nat) : Int) [3, 4] =
      65671 := by
    simp only [getExpectedSize, EnclaveMailHeaderImpl.encodedSize,
      EnclaveMailHeaderImpl.encodedSize.fieldSize, size]
    decide
  have exact : mailSize ⟨7, [116], some envelope, none⟩ 0 (plainBytes none [3, 4]).length =
      65697 := by
    simp only [mailSize, preambleSize, prologueSize, topic, Option.getD_some, size]
    decide
  have producible : Producible 100000 ⟨7, [116], some envelope, none⟩ 0 [3, 4] none := by
    refine ⟨?_, ?_, ?_⟩
    · rw [expected]
      decide
    · rw [expected]
      decide
    · rw [exact]
      decide
  obtain ⟨bytes, run⟩ := (encryptMail_ok_iff (N := addressedNoise) (1 : UInt8) (2 : UInt8) ()
    [3, 4] none (by decide) (by decide) (by rw [topic]; decide)).mpr producible
  refine ⟨bytes, run, not_recovers_of_oversized ?_ (fun prologue computed =>
    refusesCut_envelope size other computed) run⟩
  simp only [prologueSize, topic, Option.getD_some, size]
  decide

/-- An envelope of 65536 bytes is accepted and lost. -/
theorem encryptMail_loses_largeEnvelope :
    checkTopic isLetter isSpace [116] = .ok () ∧
      ∃ bytes, encryptMail (N := addressedNoise) (1 : UInt8) (2 : UInt8) () 100000
          ⟨7, [116], some (List.replicate 65536 0), none⟩ (0 : Nat) [3, 4] none = .ok bytes ∧
        ¬ Recovers (N := addressedNoise) ⟨7, [116], some (List.replicate 65536 0), none⟩ [3, 4]
          none (1 : UInt8) bytes :=
  ⟨by decide, loses_envelope List.length_replicate (by
    rw [List.getElem?_replicate]
    decide)⟩

end Conclave.Mail
