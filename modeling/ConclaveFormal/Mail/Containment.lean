import ConclaveFormal.Mail.FailStop
import ConclaveFormal.Mail.PostOffice
import ConclaveFormal.Mail.UserBytes

/-!
# What escapes from the decrypting stream

The callers of the stream expect a `MailDecryptionException` or an `IOException`.  The packets raise
nothing else, and neither does the prologue; what can go wrong is the size of the private header,
which is read as a signed number and used as the size of an array.
-/

set_option autoImplicit false

namespace Conclave.Mail

open Conclave.Lib

/-- `MailDecryptionException` is not an `IOException`, but it is what the stream is for. -/
def StreamException.isExpected : StreamException → Bool
  | mailDecryption _ => true
  | eof => true
  | utfDataFormat => true
  | indexOutOfBounds => false
  | negativeArraySize => false
  | illegalState _ => false
  | noise => false

theorem StreamException.isExpected_of_isMailDecryption {e : StreamException}
    (thrown : e.isMailDecryption = true) : e.isExpected = true := by
  cases e with
  | mailDecryption failure => rfl
  | _ => cases thrown

def Contained {α : Type} (outcome : Except StreamException α) : Prop :=
  ∀ e, outcome = .error e → e.isExpected = true

theorem contained_ok {α : Type} (value : α) : Contained (.ok value : Except StreamException α) := by
  intro e impossible
  cases impossible

theorem contained_error {α : Type} (e : StreamException) :
    e.isExpected = true ↔ Contained (.error e : Except StreamException α) := by
  refine ⟨?_, fun contained => contained e rfl⟩
  intro expected other same
  cases same
  exact expected

instance {α : Type} (outcome : Except StreamException α) : Decidable (Contained outcome) :=
  match outcome with
  | .ok value => isTrue (contained_ok value)
  | .error e => decidable_of_iff (e.isExpected = true) (contained_error e)

theorem prologueException_isExpected (e : DataError) :
    (prologueException e).isExpected = true := by
  cases e with
  | eof => rfl
  | utfDataFormat => rfl

theorem parsePrologue_contained (raw : Bytes) : Contained (parsePrologue raw) := by
  intro e thrown
  unfold parsePrologue at thrown
  split at thrown
  · cases thrown
    exact prologueException_isExpected _
  · split at thrown
    · cases thrown
      rfl
    · split at thrown
      · cases thrown
        exact prologueException_isExpected _
      · cases thrown

namespace MailDecryptingStream

open Attempt

variable {N : Noise}

/-! ## What the packets raise -/

theorem readUnsignedByte_raises :
    Raises (fun e => e.isMailDecryption = true) (readUnsignedByte (N := N)) := by
  intro stream e after ran
  unfold readUnsignedByte at ran
  split at ran
  · cases ran
    rfl
  · cases ran

theorem readUnsignedShort_raises :
    Raises (fun e => e.isMailDecryption = true) (readUnsignedShort (N := N)) :=
  readUnsignedByte_raises.bind fun _ => readUnsignedByte_raises.bind fun _ => .pure _

/-- Whatever goes wrong in the handshake is wrapped. -/
theorem maybeHandshake_raises :
    Raises (fun e => e.isMailDecryption = true) (maybeHandshake (N := N)) := by
  intro stream e after ran
  cases pending : stream.cipherState with
  | some cipherState =>
      rw [maybeHandshake_established pending] at ran
      cases ran
  | none =>
      cases untried : stream.handshakeFailure with
      | some failure =>
          rw [maybeHandshake_remembered pending untried] at ran
          cases ran
          rfl
      | none =>
          rw [maybeHandshake_untried pending untried] at ran
          split at ran
          · cases ran
          · cases ran
            rfl

theorem acceptPlaintext_raises (plaintext : Bytes) :
    Raises (fun e => e.isMailDecryption = true) (acceptPlaintext (N := N) plaintext) := by
  intro stream e after ran
  by_cases short : plaintext.length < 2
  · rw [acceptPlaintext_short short] at ran
    cases ran
    rfl
  · by_cases oversized : plaintext.length - 2 < readShort plaintext (plaintext.length - 2)
    · rw [acceptPlaintext_oversized (by omega) oversized] at ran
      cases ran
      rfl
    · rw [acceptPlaintext_ok (by omega) (by omega)] at ran
      cases ran

theorem readNextPacket_raises :
    Raises (fun e => e.isMailDecryption = true) (readNextPacket (N := N)) := by
  refine maybeHandshake_raises.bind fun cipherState => ?_
  refine readUnsignedShort_raises.bind fun packetLength => ?_
  by_cases small : packetLength < macLength
  · rw [if_pos small]
    exact .throw rfl
  · rw [if_neg small]
    refine Raises.bind (.handle _ fun _ => .throw rfl) fun encrypted => ?_
    cases decrypted : cipherState.decryptWithAd encrypted with
    | mk opened next =>
        refine Raises.bind (.modify _) fun _ => ?_
        cases opened with
        | none => exact .throw rfl
        | some plaintext => exact acceptPlaintext_raises plaintext

theorem Yields.failure_isMailDecryption {stream : MailDecryptingStream N} {bytes : Bytes}
    {ending : Ending N} (yields : Yields stream bytes ending) :
    ∀ e after, ending = .failure e after → e.isMailDecryption = true := by
  induction yields with
  | terminator index length =>
      intro e after impossible
      cases impossible
  | rejected drained thrown =>
      intro e after same
      cases same
      exact readNextPacket_raises _ _ _ thrown
  | accepted drained returned rest ih => exact ih
  | byte low high bound rest ih => exact ih

/-! ## How much there is to read -/

/-- User bytes are in the buffer or in the input. -/
theorem Yields.length_le {stream : MailDecryptingStream N} {bytes : Bytes} {ending : Ending N}
    (yields : Yields stream bytes ending) {cipherState : CipherState N}
    (session : stream.cipherState = some cipherState) :
    (bytes.length : Int) ≤ stream.currentUserBytesLength - stream.currentUserBytesIndex +
      stream.input.length := by
  induction yields generalizing cipherState with
  | terminator index length =>
      rw [List.length_nil]
      omega
  | rejected drained thrown =>
      rw [List.length_nil]
      omega
  | accepted drained returned rest ih =>
      obtain ⟨b1, b2, packets, plaintext, input, _, available, _, decrypted, _, fits, rfl⟩ :=
        readNextPacket_accepted session returned
      have size := N.decrypt_length _ _ _ _ decrypted
      rw [List.length_take, macLength_eq] at size
      have later := ih rfl
      simp only [List.length_drop] at later
      rw [input, List.length_cons, List.length_cons]
      split at later <;> push_cast at later ⊢ <;> omega
  | byte low high bound rest ih =>
      have later := ih session
      simp only [advance] at later
      rw [List.length_cons]
      push_cast at later ⊢
      omega

/-! ## The private header -/

/-- `readInt` makes a negative number of the first four bytes, where what is behind the terminator
counts as `0xFF`. -/
def NegativeSize (bytes : Bytes) (terminated : Prop) : Prop :=
  headerSize bytes < 0 ∧ (4 ≤ bytes.length ∨ terminated)

/-- A session in which everything that a mail is made of is known. -/
structure Complete (stream : MailDecryptingStream N) : Prop where
  prologue : stream.prologue.isSome = true
  cipherState : stream.cipherState.isSome = true
  senderPublicKey : stream.senderPublicKey.isSome = true

theorem Complete.keeps {before after : MailDecryptingStream N} (complete : Complete before)
    (kept : Keeps before after) : Complete after := by
  obtain ⟨prologue, known⟩ := Option.isSome_iff_exists.mp complete.prologue
  obtain ⟨cipherState, session⟩ := Option.isSome_iff_exists.mp complete.cipherState
  obtain ⟨sender, open_⟩ := kept.session cipherState session
  refine ⟨?_, open_, ?_⟩
  · rw [kept.prologue prologue known]
    rfl
  · rw [sender]
    exact complete.senderPublicKey

theorem Complete.withPrivateHeader {stream : MailDecryptingStream N} (complete : Complete stream)
    (privateHeader : Option Bytes) (privateHeaderRead : Bool) :
    Complete (stream.withPrivateHeader privateHeader privateHeaderRead) :=
  ⟨complete.prologue, complete.cipherState, complete.senderPublicKey⟩

theorem Yields.receivePrivateHeader_negative {stream : MailDecryptingStream N} {bytes : Bytes}
    {ending : Ending N} (yields : Yields stream bytes ending)
    (negative : NegativeSize bytes (ending = .terminator)) :
    ∃ after, MailDecryptingStream.receivePrivateHeader stream =
      (.error .negativeArraySize, after) := by
  rcases yields.readInt with ⟨middle, ran, _⟩ | ⟨short, e, after, failed, _⟩
  · refine ⟨middle, ?_⟩
    have thrown : readExactlyNBytes (headerSize bytes) middle =
        (.error .negativeArraySize, middle) := by
      simp [readExactlyNBytes, negative.1]
    have nonzero : headerSize bytes ≠ 0 := by
      have below := negative.1
      omega
    rw [MailDecryptingStream.receivePrivateHeader, bind_ok ran, if_neg nonzero,
      bind_error thrown]
  · rcases negative.2 with complete | last
    · omega
    · rw [last] at failed
      cases failed

/-- What is left when the private header is out of the way. -/
def GoesOn (stream : MailDecryptingStream N) (bytes : Bytes)
    (outcome : Except StreamException Unit × MailDecryptingStream N) : Prop :=
  (∃ after rest ending, outcome = (.ok (), after) ∧
      after.privateHeaderRead = stream.privateHeaderRead ∧ Complete after ∧
      Yields after rest ending ∧ rest.length ≤ bytes.length) ∨
    ∃ e after, outcome = (.error e, after) ∧ e.isExpected = true

theorem GoesOn.received {stream middle : MailDecryptingStream N} {bytes rest : Bytes}
    {ending : Ending N} (complete : Complete stream) (kept : Keeps stream middle)
    (yields : Yields middle rest ending) (shorter : rest.length ≤ bytes.length)
    (privateHeader : Option Bytes) :
    GoesOn stream bytes
      (.ok (), middle.withPrivateHeader privateHeader middle.privateHeaderRead) :=
  .inl ⟨_, rest, _, rfl, kept.privateHeaderRead,
    (complete.keeps kept).withPrivateHeader privateHeader middle.privateHeaderRead,
    yields.withPrivateHeader privateHeader middle.privateHeaderRead, shorter⟩

theorem Yields.receivePrivateHeader_continues {stream : MailDecryptingStream N} {bytes : Bytes}
    {ending : Ending N} (yields : Yields stream bytes ending) (complete : Complete stream)
    (nonnegative : ¬ NegativeSize bytes (ending = .terminator)) :
    GoesOn stream bytes (MailDecryptingStream.receivePrivateHeader stream) := by
  have expected : ∀ e after, ending = .failure e after → e.isExpected = true := by
    intro e after failed
    exact StreamException.isExpected_of_isMailDecryption
      (yields.failure_isMailDecryption e after failed)
  rw [MailDecryptingStream.receivePrivateHeader]
  rcases yields.readInt with ⟨middle, ran, kept, rest, available⟩ | ⟨_, e, after, failed, ran⟩
  · have least : 0 ≤ headerSize bytes := by
      by_contra below
      exact nonnegative ⟨by omega, available⟩
    rw [bind_ok ran]
    by_cases zero : headerSize bytes = 0
    · rw [if_pos zero]
      refine GoesOn.received complete kept rest ?_ none
      rw [List.length_drop]
      omega
    · rw [if_neg zero]
      obtain ⟨size, sizeEq⟩ := Int.eq_ofNat_of_zero_le least
      rw [sizeEq]
      by_cases enough : size ≤ (bytes.drop 4).length
      · obtain ⟨after, exact_, keptAgain, restAgain⟩ :=
          rest.readExactlyNBytes_ok size (by omega) enough
        rw [bind_ok exact_]
        refine GoesOn.received complete (kept.trans keptAgain) restAgain ?_ _
        rw [List.length_drop, List.length_drop]
        omega
      · rcases rest.readExactlyNBytes_short size (by omega) with
          ⟨_, after, thrown, _⟩ | ⟨e, after, failed, thrown⟩
        · exact .inr ⟨.eof, after, bind_error thrown, rfl⟩
        · exact .inr ⟨e, after, bind_error thrown, expected e after failed⟩
  · exact .inr ⟨e, after, bind_error ran, expected e after failed⟩

/-! ## The block that is read first -/

theorem readUserBytes_congr {first second : MailDecryptingStream N} {len : Nat}
    (positive : 0 < len) (same : ensureAvailablePacket first = ensureAvailablePacket second) :
    readUserBytes len first = readUserBytes len second := by
  cases len with
  | zero => omega
  | succ len =>
      rw [readUserBytes, copyLoop]
      exact bind_congr _ same

theorem readBlock_congr {first second : MailDecryptingStream N}
    (headerRead₁ : first.privateHeaderRead = true) (headerRead₂ : second.privateHeaderRead = true)
    (same : ensureAvailablePacket first = ensureAvailablePacket second) :
    read (.many 8192 0 8192) first = read (.many 8192 0 8192) second := by
  have valid : outOfBounds 8192 0 8192 = false := by decide
  have copied : readUserBytes (8192 : Int).toNat first = readUserBytes (8192 : Int).toNat second :=
    readUserBytes_congr (by decide) same
  rw [read_of_headerRead _ headerRead₁, read_of_headerRead _ headerRead₂]
  simp only [valid]
  rw [if_neg (by decide), if_neg (by decide)]
  exact bind_congr _ copied

/-! ## The stream behind the handshake -/

/-- The handshake has been done and the private header has not been read. -/
def opened (stream : MailDecryptingStream N) (prologue : Prologue) (sender : N.PublicKey)
    (key : N.CipherKey) (frames : Bytes) : MailDecryptingStream N :=
  { stream.inSession prologue sender key frames with privateHeaderRead := false }

section Opened

variable {stream : MailDecryptingStream N} {prologue : Prologue} {sender : N.PublicKey}
  {key : N.CipherKey} {frames : Bytes}

theorem complete_inSession : Complete (stream.inSession prologue sender key frames) :=
  ⟨rfl, rfl, rfl⟩

theorem maybeReadPrivateHeader_opened :
    maybeReadPrivateHeader (stream.opened prologue sender key frames) =
      (if prologue.protocol.ordinal < MailProtocol.senderKeyTransmittedV2.ordinal then
        Attempt.modify fun stream => { stream with privateHeader := none }
      else handle receivePrivateHeader headerFailed : Reading N Unit)
        (stream.inSession prologue sender key frames) := by
  have unread : (stream.opened prologue sender key frames).privateHeaderRead = false := rfl
  rw [maybeReadPrivateHeader_unread unread]
  exact bind_ok (getPrologue_known rfl)

theorem drained_inSession {input : Bytes} {privateKey : N.PrivateKey}
    (fresh : Fresh stream input privateKey) :
    (stream.inSession prologue sender key frames).currentUserBytesIndex =
      (stream.inSession prologue sender key frames).currentUserBytesLength :=
  fresh.index.trans fresh.length.symm

/-- Doing the handshake first makes no difference to the first block. -/
theorem read_fresh_opened {input raw rest : Bytes} {privateKey : N.PrivateKey}
    (fresh : Fresh stream input privateKey) (split : splitPrologue input = .ok (raw, rest))
    (parsed : parsePrologue raw = .ok prologue)
    (established : maybeHandshake (stream.afterPrologue prologue rest) =
      (.ok ⟨key, 0⟩, stream.inSession prologue sender key frames)) :
    read (.many 8192 0 8192) stream =
      read (.many 8192 0 8192) (stream.opened prologue sender key frames) := by
  have drainedBefore : (stream.afterPrologue prologue rest).currentUserBytesIndex =
      (stream.afterPrologue prologue rest).currentUserBytesLength :=
    fresh.index.trans fresh.length.symm
  have drainedAfter : (stream.inSession prologue sender key frames).currentUserBytesIndex =
      (stream.inSession prologue sender key frames).currentUserBytesLength :=
    drained_inSession fresh
  have same := readNextPacket_afterHandshake established rfl
  have before := maybeReadPrivateHeader_fresh fresh split parsed
  have after := @maybeReadPrivateHeader_opened N stream prologue sender key frames
  by_cases old : prologue.protocol.ordinal < MailProtocol.senderKeyTransmittedV2.ordinal
  · rw [if_pos old] at before after
    have headless : readNextPacket
        ((stream.afterPrologue prologue rest).withPrivateHeader none true) =
          readNextPacket
            ((stream.inSession prologue sender key frames).withPrivateHeader none true) := by
      rw [readNextPacket_ignores none true, readNextPacket_ignores none true, same]
    have available : ensureAvailablePacket
        ((stream.afterPrologue prologue rest).withPrivateHeader none true) =
          ensureAvailablePacket
            ((stream.inSession prologue sender key frames).withPrivateHeader none true) :=
      ensureAvailablePacket_congr drainedBefore drainedAfter headless
    rw [read_after_header _ before rfl, read_after_header _ after rfl]
    exact readBlock_congr rfl rfl available
  · rw [if_neg old] at before after
    have received := receivePrivateHeader_congr
      (ensureAvailablePacket_congr drainedBefore drainedAfter same)
    have handled : handle receivePrivateHeader headerFailed (stream.afterPrologue prologue rest) =
        handle receivePrivateHeader headerFailed
          (stream.inSession prologue sender key frames) := by
      simp only [handle, received]
    exact bind_congr _ (before.trans (handled.trans after.symm))

end Opened

/-! ## Reading to the end -/

/-- The whole body has been read, or the exception is one that the callers expect. -/
def Finishes (outcome : Except StreamException Bytes × MailDecryptingStream N) : Prop :=
  (∃ body after, outcome = (.ok body, after) ∧ Complete after) ∨
    ∃ e after, outcome = (.error e, after) ∧ e.isExpected = true

theorem Yields.readBytesLoop_finishes {stream : MailDecryptingStream N} {body : Bytes}
    {ending : Ending N} (yields : Yields stream body ending) (complete : Complete stream)
    (headerRead : stream.privateHeaderRead = true) {fuel : Nat} (enough : body.length < fuel) :
    Finishes (MailDecryptingStream.readBytesLoop fuel stream) := by
  rcases yields.readBytesLoop fuel headerRead enough with
    ⟨_, after, ran, kept⟩ | ⟨e, after, failed, ran⟩
  · exact .inl ⟨body, after, ran, complete.keeps kept⟩
  · refine .inr ⟨e, after, ran, ?_⟩
    exact StreamException.isExpected_of_isMailDecryption
      (yields.failure_isMailDecryption e after failed)

theorem readBytesLoop_after_header {stream after : MailDecryptingStream N} (fuel : Nat)
    (first : maybeReadPrivateHeader stream = (.ok (), after))
    (headerRead : after.privateHeaderRead = true) :
    readBytesLoop (fuel + 1) stream = readBytesLoop (fuel + 1) after := by
  rw [readBytesLoop]
  exact bind_congr _ (read_after_header _ first headerRead)

theorem readBytesLoop_blocked {stream after : MailDecryptingStream N} {e : StreamException}
    (fuel : Nat) (blocked : maybeReadPrivateHeader stream = (.error e, after)) :
    readBytesLoop (fuel + 1) stream = (.error e, after) := by
  have thrown : read (.many 8192 0 8192) stream = (.error e, after) := by
    rw [read, bind_error blocked]
  rw [readBytesLoop, bind_error thrown]

theorem headerException_isExpected {e : StreamException} (expected : e.isExpected = true) :
    (headerException e).isExpected = true := by
  cases e with
  | eof => rfl
  | _ => exact expected

section Opened

variable {stream : MailDecryptingStream N} {prologue : Prologue} {sender : N.PublicKey}
  {key : N.CipherKey} {frames bytes : Bytes} {ending : Ending N}

theorem readBytesLoop_opened_negative
    (new : ¬ prologue.protocol.ordinal < MailProtocol.senderKeyTransmittedV2.ordinal)
    (yields : Yields (stream.inSession prologue sender key frames) bytes ending)
    (negative : NegativeSize bytes (ending = .terminator)) (fuel : Nat) :
    ∃ after, readBytesLoop (fuel + 1) (stream.opened prologue sender key frames) =
      (.error .negativeArraySize, after) := by
  obtain ⟨after, thrown⟩ := yields.receivePrivateHeader_negative negative
  have first := @maybeReadPrivateHeader_opened N stream prologue sender key frames
  rw [if_neg new, handle_error thrown, headerFailed_eq] at first
  exact ⟨_, readBytesLoop_blocked fuel first⟩

theorem readBytesLoop_opened_finishes
    (yields : Yields (stream.inSession prologue sender key frames) bytes ending)
    (nonnegative : ¬ prologue.protocol.ordinal < MailProtocol.senderKeyTransmittedV2.ordinal →
      ¬ NegativeSize bytes (ending = .terminator)) {fuel : Nat} (enough : bytes.length < fuel + 1) :
    Finishes (readBytesLoop (fuel + 1) (stream.opened prologue sender key frames)) := by
  have complete : Complete (stream.inSession prologue sender key frames) := complete_inSession
  have first := @maybeReadPrivateHeader_opened N stream prologue sender key frames
  by_cases old : prologue.protocol.ordinal < MailProtocol.senderKeyTransmittedV2.ordinal
  · rw [if_pos old] at first
    rw [readBytesLoop_after_header fuel first rfl]
    exact (yields.withPrivateHeader none true).readBytesLoop_finishes
      (complete.withPrivateHeader none true) rfl enough
  · rw [if_neg old] at first
    rcases yields.receivePrivateHeader_continues complete (nonnegative old) with
      ⟨after, rest, last, received, flag, known, behind, shorter⟩ | ⟨e, after, thrown, expected⟩
    · rw [handle_ok received] at first
      rw [readBytesLoop_after_header fuel first flag]
      have fits : rest.length < fuel + 1 := by omega
      exact behind.readBytesLoop_finishes known flag fits
    · rw [handle_error thrown, headerFailed_eq] at first
      exact .inr ⟨_, _, readBytesLoop_blocked fuel first, headerException_isExpected expected⟩

end Opened

/-! ## From the first byte -/

theorem maybeHandshake_opens {stream : MailDecryptingStream N} {input rest packets : Bytes}
    {privateKey : N.PrivateKey} {prologue : Prologue} {key : N.CipherKey}
    (fresh : Fresh stream input privateKey)
    (session : openSession privateKey prologue rest = some (key, packets)) :
    ∃ sender, maybeHandshake (stream.afterPrologue prologue rest) =
      (.ok ⟨key, 0⟩, stream.inSession prologue sender key packets) := by
  unfold openSession at session
  by_cases short : rest.length < prologue.protocol.handshakeLength
  · rw [if_pos short] at session
    cases session
  · rw [if_neg short] at session
    cases opened : N.readMessage privateKey prologue.raw
        (rest.take prologue.protocol.handshakeLength) with
    | error e =>
        rw [opened] at session
        cases session
    | ok outcome =>
        obtain ⟨sender, established⟩ := outcome
        rw [opened] at session
        cases session
        have length : (rest.take prologue.protocol.handshakeLength).length =
            prologue.protocol.handshakeLength := by
          rw [List.length_take]
          omega
        have ran := maybeHandshake_fresh (rest.drop prologue.protocol.handshakeLength) fresh
          length opened
        rw [List.take_append_drop] at ran
        exact ⟨sender, ran⟩

theorem maybeHandshake_refuses {stream : MailDecryptingStream N} {input rest : Bytes}
    {privateKey : N.PrivateKey} {prologue : Prologue} (fresh : Fresh stream input privateKey)
    (refused : openSession privateKey prologue rest = none) :
    ∃ e after, maybeHandshake (stream.afterPrologue prologue rest) = (.error e, after) := by
  cases ran : maybeHandshake (stream.afterPrologue prologue rest) with
  | mk outcome after =>
      cases outcome with
      | error e => exact ⟨e, after, rfl⟩
      | ok cipherState =>
          obtain ⟨message, frames, sender, key, rfl, length, opened, _⟩ :=
            maybeHandshake_inverted fresh ran
          unfold openSession at refused
          simp only at refused
          rw [if_neg (by rw [List.length_append]; omega), ← length, List.take_left,
            opened] at refused
          cases refused

end MailDecryptingStream

open MailDecryptingStream in
/-- The size field of the private header is a negative number: its first bit is set, or the
terminator stands before its first byte. -/
def NegativeHeaderSize {N : Noise} (privateKey : N.PrivateKey) (input : Bytes) : Prop :=
  ∃ raw rest prologue key packets, splitPrologue input = .ok (raw, rest) ∧
    parsePrologue raw = .ok prologue ∧
    ¬ prologue.protocol.ordinal < MailProtocol.senderKeyTransmittedV2.ordinal ∧
    openSession privateKey prologue rest = some (key, packets) ∧
    NegativeSize (userBytes packets.length ⟨key, 0⟩ packets).1
      ((userBytes packets.length ⟨key, 0⟩ packets).2 = true)

namespace MailDecryptingStream

open Attempt

variable {N : Noise}

/-- With the prologue known, the handshake and the packets decide. -/
theorem negativeHeaderSize_behind {input raw rest : Bytes} {prologue : Prologue}
    (split : splitPrologue input = .ok (raw, rest)) (parsed : parsePrologue raw = .ok prologue)
    (privateKey : N.PrivateKey) :
    NegativeHeaderSize privateKey input ↔
      ¬ prologue.protocol.ordinal < MailProtocol.senderKeyTransmittedV2.ordinal ∧
        ∃ key packets, openSession privateKey prologue rest = some (key, packets) ∧
          NegativeSize (userBytes packets.length ⟨key, 0⟩ packets).1
            ((userBytes packets.length ⟨key, 0⟩ packets).2 = true) := by
  constructor
  · rintro ⟨raw', rest', prologue', key, packets, split', parsed', new, session, negative⟩
    rw [split] at split'
    cases split'
    rw [parsed] at parsed'
    cases parsed'
    exact ⟨new, key, packets, session, negative⟩
  · rintro ⟨new, key, packets, session, negative⟩
    exact ⟨raw, rest, prologue, key, packets, split, parsed, new, session, negative⟩

/-- How reading a mail to its end turns out. -/
def BodyOutcome (privateKey : N.PrivateKey) (input : Bytes)
    (outcome : Except StreamException Bytes × MailDecryptingStream N) : Prop :=
  (NegativeHeaderSize privateKey input → ∃ after, outcome = (.error .negativeArraySize, after)) ∧
    (¬ NegativeHeaderSize privateKey input → Finishes outcome)

section Session

variable {stream : MailDecryptingStream N} {input raw rest packets : Bytes}
  {privateKey : N.PrivateKey} {prologue : Prologue} {key : N.CipherKey} {sender : N.PublicKey}

theorem yields_inSession (fresh : Fresh stream input privateKey) :
    ∃ ending, Yields (stream.inSession prologue sender key packets)
        (userBytes packets.length ⟨key, 0⟩ packets).1 ending ∧
      ((userBytes packets.length ⟨key, 0⟩ packets).2 = true ↔ ending = .terminator) ∧
      (userBytes packets.length ⟨key, 0⟩ packets).1.length ≤ packets.length := by
  have drained := @drained_inSession N stream prologue sender key packets input privateKey fresh
  have session : (stream.inSession prologue sender key packets).cipherState = some ⟨key, 0⟩ := rfl
  obtain ⟨ending, yields, terminated⟩ := yields_userBytes packets.length session drained le_rfl
  have length := yields.length_le session
  rw [drained] at length
  have input : (stream.inSession prologue sender key packets).input = packets := rfl
  rw [input] at yields terminated length
  exact ⟨ending, yields, terminated, by omega⟩

theorem readBytesLoop_session (fresh : Fresh stream input privateKey)
    (split : splitPrologue input = .ok (raw, rest)) (parsed : parsePrologue raw = .ok prologue)
    (session : openSession privateKey prologue rest = some (key, packets)) (sender : N.PublicKey)
    {fuel : Nat} (enough : packets.length ≤ fuel) :
    BodyOutcome privateKey input
      (readBytesLoop (fuel + 1) (stream.opened prologue sender key packets)) := by
  obtain ⟨ending, yields, terminated, short⟩ :=
    @yields_inSession N stream input packets privateKey prologue key sender fresh
  have behind := negativeHeaderSize_behind split parsed privateKey
  refine ⟨?_, ?_⟩
  · intro negative
    obtain ⟨new, key', packets', session', size, known⟩ := behind.mp negative
    rw [session] at session'
    cases session'
    exact readBytesLoop_opened_negative new yields ⟨size, known.imp_right terminated.mp⟩ fuel
  · intro nonnegative
    refine readBytesLoop_opened_finishes yields ?_ (by omega)
    rintro new ⟨size, known⟩
    apply nonnegative
    exact behind.mpr ⟨new, key, packets, session, size, known.imp_right terminated.mpr⟩

end Session

theorem openSession_length {prologue : Prologue} {privateKey : N.PrivateKey} {key : N.CipherKey}
    {rest packets : Bytes}
    (session : openSession privateKey prologue rest = some (key, packets)) :
    packets.length ≤ rest.length := by
  unfold openSession at session
  by_cases short : rest.length < prologue.protocol.handshakeLength
  · rw [if_pos short] at session
    cases session
  · rw [if_neg short] at session
    cases opened : N.readMessage privateKey prologue.raw
        (rest.take prologue.protocol.handshakeLength) with
    | error e =>
        rw [opened] at session
        cases session
    | ok outcome =>
        rw [opened] at session
        cases session
        rw [List.length_drop]
        omega

theorem Fresh.readBytesLoop {stream : MailDecryptingStream N} {input : Bytes}
    {privateKey : N.PrivateKey} (fresh : Fresh stream input privateKey) {fuel : Nat}
    (enough : input.length ≤ fuel) :
    BodyOutcome privateKey input (MailDecryptingStream.readBytesLoop (fuel + 1) stream) := by
  cases split : splitPrologue input with
  | error failure =>
      have blocked := readBytesLoop_blocked fuel (maybeReadPrivateHeader_truncated fresh split)
      refine ⟨?_, fun _ => .inr ⟨_, _, blocked, rfl⟩⟩
      rintro ⟨_, _, _, _, _, split', _⟩
      rw [split] at split'
      cases split'
  | ok pair =>
      obtain ⟨raw, rest⟩ := pair
      cases parsed : parsePrologue raw with
      | error e =>
          have blocked := readBytesLoop_blocked fuel
            (maybeReadPrivateHeader_unparsed fresh split parsed)
          refine ⟨?_, fun _ => .inr ⟨_, _, blocked, parsePrologue_contained raw e parsed⟩⟩
          rintro ⟨_, _, _, _, _, split', parsed', _⟩
          rw [split] at split'
          cases split'
          rw [parsed] at parsed'
          cases parsed'
      | ok prologue =>
          cases session : openSession privateKey prologue rest with
          | none =>
              refine ⟨?_, fun _ => ?_⟩
              · intro negative
                obtain ⟨_, _, _, session', _⟩ :=
                  (negativeHeaderSize_behind split parsed privateKey).mp negative
                rw [session] at session'
                cases session'
              · obtain ⟨e, after, failed⟩ := maybeHandshake_refuses fresh session
                have expected := StreamException.isExpected_of_isMailDecryption
                  (maybeHandshake_raises _ _ _ failed)
                rcases maybeReadPrivateHeader_noSession fresh split parsed failed with
                  thrown | ⟨first, yields⟩
                · exact .inr ⟨_, _, readBytesLoop_blocked fuel thrown,
                    headerException_isExpected expected⟩
                · rw [readBytesLoop_after_header fuel first rfl]
                  rcases yields.readBytesLoop (fuel + 1) rfl (Nat.succ_pos fuel) with
                    ⟨impossible, _⟩ | ⟨_, final, same, ran⟩
                  · cases impossible
                  · cases same
                    exact .inr ⟨e, _, ran, expected⟩
          | some established =>
              obtain ⟨key, packets⟩ := established
              obtain ⟨sender, ran⟩ := maybeHandshake_opens fresh session
              have shorter := openSession_length session
              have behind := splitPrologue_length split
              have fits : packets.length ≤ fuel := by omega
              have same : MailDecryptingStream.readBytesLoop (fuel + 1) stream =
                  MailDecryptingStream.readBytesLoop (fuel + 1)
                    (stream.opened prologue sender key packets) := by
                rw [MailDecryptingStream.readBytesLoop]
                exact bind_congr _ (read_fresh_opened fresh split parsed ran)
              rw [same]
              exact readBytesLoop_session fresh split parsed session sender fits

theorem decryptMail_body {stream keyed : MailDecryptingStream N} {input : Bytes}
    {privateKey : N.PrivateKey} (isKdsKey : Bool)
    (provided : setPrivateKey privateKey stream = (.ok (), keyed))
    (body : BodyOutcome privateKey input (readBytes keyed)) :
    Contained (decryptMail privateKey isKdsKey stream).1 ↔
      ¬ NegativeHeaderSize privateKey input := by
  rw [decryptMail, bind_ok provided]
  refine ⟨?_, ?_⟩
  · intro contained negative
    obtain ⟨after, thrown⟩ := body.1 negative
    rw [bind_error thrown] at contained
    cases contained _ rfl
  · intro nonnegative e escaped
    rcases body.2 nonnegative with ⟨mailBody, after, ran, complete⟩ | ⟨e', after, thrown, expected⟩
    · obtain ⟨prologue, known⟩ := Option.isSome_iff_exists.mp complete.prologue
      obtain ⟨cipherState, session⟩ := Option.isSome_iff_exists.mp complete.cipherState
      obtain ⟨sender, senderKnown⟩ := Option.isSome_iff_exists.mp complete.senderPublicKey
      have senderRead : getSenderPublicKey after = (.ok sender, after) := by
        rw [getSenderPublicKey, bind_ok (maybeHandshake_established session), get_bind,
          senderKnown]
        rfl
      rw [bind_ok ran, bind_ok (header_known known), bind_ok senderRead] at escaped
      cases escaped
    · rw [bind_error thrown] at escaped
      cases escaped
      exact expected

/-- The header of a new stream is that of its prologue, or there is none. -/
theorem header_new (input : Bytes) (privateKey : Option N.PrivateKey) :
    (∃ e after, header (new input privateKey) = (.error e, after) ∧ e.isExpected = true) ∨
      ∃ raw rest prologue, splitPrologue input = .ok (raw, rest) ∧
        parsePrologue raw = .ok prologue ∧
        header (new input privateKey) = (.ok prologue.header,
          { new input privateKey with input := rest, prologue := some prologue }) := by
  rw [header]
  cases split : splitPrologue input with
  | error failure =>
      have got : getPrologue (new input privateKey) = _ := getPrologue_truncated rfl split
      exact .inl ⟨_, _, bind_error got, rfl⟩
  | ok pair =>
      obtain ⟨raw, rest⟩ := pair
      have got : getPrologue (new input privateKey) = _ := getPrologue_parse rfl split
      cases parsed : parsePrologue raw with
      | error e =>
          rw [parsed] at got
          exact .inl ⟨e, _, bind_error got, parsePrologue_contained raw e parsed⟩
      | ok prologue =>
          rw [parsed] at got
          exact .inr ⟨raw, rest, prologue, rfl, parsed, bind_ok got⟩

theorem header_contained (input : Bytes) (privateKey : Option N.PrivateKey) :
    Contained (header (new input privateKey)).1 := by
  rcases header_new input privateKey with ⟨e, after, thrown, expected⟩ | ⟨_, _, prologue, _, _, ran⟩
  · rw [thrown]
    exact (contained_error e).mp expected
  · rw [ran]
    exact contained_ok prologue.header

theorem header_returned {input : Bytes} {result : EnclaveMailHeaderImpl}
    {after : MailDecryptingStream N} (read : header (new input none) = (.ok result, after)) :
    ∃ raw rest prologue, splitPrologue input = .ok (raw, rest) ∧
      parsePrologue raw = .ok prologue ∧
      after = { new input none with input := rest, prologue := some prologue } := by
  rcases header_new (N := N) input none with
    ⟨e, _, thrown, _⟩ | ⟨raw, rest, prologue, split, parsed, ran⟩
  · rw [read] at thrown
    cases thrown
  · rw [read] at ran
    cases ran
    exact ⟨raw, rest, prologue, split, parsed, rfl⟩

/-- With the header read, the handshake is done as soon as there is a key. -/
theorem setPrivateKey_headerRead (input rest : Bytes) (prologue : Prologue)
    (privateKey : N.PrivateKey) :
    setPrivateKey privateKey { new input none with input := rest, prologue := some prologue } =
      (do
        let _ ← maybeHandshake
        pure () : Reading N Unit)
        (((withKey input privateKey).afterPrologue prologue rest).withPrivateHeader none false) :=
  rfl

theorem decryptMail_after_header {input : Bytes} {privateKey : N.PrivateKey} (isKdsKey : Bool)
    {result : EnclaveMailHeaderImpl} {after : MailDecryptingStream N}
    (read : header (new input none) = (.ok result, after))
    (nonnegative : ¬ NegativeHeaderSize privateKey input) :
    Contained (decryptMail privateKey isKdsKey after).1 := by
  have fresh := fresh_withKey input privateKey
  obtain ⟨raw, rest, prologue, split, parsed, rfl⟩ := header_returned read
  have provided := setPrivateKey_headerRead input rest prologue privateKey
  have ignored := maybeHandshake_ignores none false
    ((withKey input privateKey).afterPrologue prologue rest)
  cases session : openSession privateKey prologue rest with
  | none =>
      obtain ⟨e, final, failed⟩ := maybeHandshake_refuses fresh session
      rw [failed] at ignored
      rw [bind_error ignored] at provided
      intro e' escaped
      rw [decryptMail, bind_error provided] at escaped
      cases escaped
      exact StreamException.isExpected_of_isMailDecryption (maybeHandshake_raises _ _ _ failed)
  | some established =>
      obtain ⟨key, packets⟩ := established
      obtain ⟨sender, ran⟩ := maybeHandshake_opens fresh session
      rw [ran] at ignored
      rw [bind_ok ignored] at provided
      have body : BodyOutcome privateKey input
          (readBytes ((withKey input privateKey).opened prologue sender key packets)) := by
        rw [readBytes]
        refine readBytesLoop_session fresh split parsed session sender ?_
        exact Nat.le_add_right _ _
      exact (decryptMail_body isKdsKey provided body).mpr nonnegative

end MailDecryptingStream

open MailDecryptingStream in
/-- Everything but the exception of a negative array size is what the callers expect. -/
theorem decryptMail_contained_iff {N : Noise} (input : Bytes) (privateKey : N.PrivateKey)
    (isKdsKey : Bool) :
    ((∀ provided, Contained (header (new (N := N) input provided)).1) ∧
        Contained (decryptMail privateKey isKdsKey (new input none)).1 ∧
        ∀ result after, header (new input none) = (.ok result, after) →
          Contained (decryptMail privateKey isKdsKey after).1) ↔
      ¬ NegativeHeaderSize privateKey input := by
  have provided : setPrivateKey privateKey (new input none) =
      (.ok (), withKey input privateKey) := rfl
  have body : BodyOutcome privateKey input (readBytes (withKey input privateKey)) := by
    rw [readBytes]
    refine (fresh_withKey input privateKey).readBytesLoop ?_
    exact Nat.le_add_right _ _
  have direct := decryptMail_body isKdsKey provided body
  refine ⟨?_, ?_⟩
  · rintro ⟨_, contained, _⟩
    exact direct.mp contained
  · intro nonnegative
    refine ⟨header_contained input, direct.mpr nonnegative, ?_⟩
    intro result after read
    exact decryptMail_after_header isKdsKey read nonnegative

/-- A mail whose first packet is the terminator. -/
def terminatorOnly : Bytes :=
  [0, 15, 1] ++ List.replicate 14 0 ++ List.replicate 97 7 ++ [0, 18] ++ List.replicate 18 0

open MailDecryptingStream in
/-- Four bytes from behind the terminator are the size -1. -/
theorem decryptMail_not_contained :
    ¬ Contained (decryptMail (N := openNoise) (2, none) false (new terminatorOnly none)).1 := by
  decide +kernel

end Conclave.Mail
