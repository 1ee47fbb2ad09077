import ConclaveFormal.Lib.Framing
import ConclaveFormal.Mail.RoundTrip

/-!
# What an adversary can make of a mail

The receiver's key has been used for one honest mail, and the adversary chooses
the input.  Decryption under a packet nonce succeeds on the sender's ciphertext
of that nonce only, so the packets accepted so far are always the first packets
of the mail (`Yields.authentic`).  Up to its first exception a reader therefore
sees a prefix of the body, and the end of the stream only behind the whole mail.
-/

set_option autoImplicit false

namespace Conclave.Mail

open Conclave.Lib

/-- What the reader assumes of the cipher and the handshake, for one mail. -/
structure Unforged (N : Noise) (privateKey : N.PrivateKey) (prologue message : Bytes)
    (key : N.CipherKey) (sent : List Packet) : Prop where
  opens : MailDecryptingStream.Opens N key 0 sent
  packets : ∀ nonce ciphertext plaintext, N.decrypt key nonce ciphertext = some plaintext →
    ∃ packet, sent[nonce]? = some packet ∧ ciphertext = N.encrypt key nonce packet.plaintext
  handshake : ∀ raw hello sender sessionKey,
    N.readMessage privateKey raw hello = .ok (sender, sessionKey) →
      raw = prologue ∧ hello = message ∧ sessionKey = key

namespace MailDecryptingStream

open Attempt

variable {N : Noise} {privateKey : N.PrivateKey} {prologue message : Bytes} {key : N.CipherKey}
  {sent : List Packet}

/-! ## Accepted packets -/

theorem readNextPacket_authentic {stream after : MailDecryptingStream N} {nonce : Nat}
    (unforged : Unforged N privateKey prologue message key sent)
    (bounded : ∀ packet ∈ sent, packet.payloadLength ≤ maxPacketPayloadLength)
    (session : stream.cipherState = some ⟨key, nonce⟩)
    (accepted : readNextPacket stream = (.ok (), after)) :
    ∃ packet rest, sent[nonce]? = some packet ∧
      stream.input = frame N key nonce packet ++ rest ∧
      after = stream.afterFrame ⟨key, nonce⟩ packet rest := by
  obtain ⟨b1, b2, rest, plaintext, input, large, whole, unused, decrypted, _⟩ :=
    readNextPacket_accepted session accepted
  obtain ⟨packet, found, ciphertext⟩ := unforged.packets nonce _ _ decrypted
  have bound := bounded packet (List.mem_of_getElem? found)
  rw [maxPacketPayloadLength_eq] at bound
  have length : b1.toNat * 256 + b2.toNat = packet.payloadLength + 18 := by
    have size := congrArg List.length ciphertext
    rw [List.length_take, N.encrypt_length, packet.plaintext_length, macLength_eq] at size
    omega
  have sizeField := writeShort_bytes b1 b2
  rw [length, writeShort_eq, List.cons.injEq, List.cons.injEq] at sizeField
  obtain ⟨high, low, _⟩ := sizeField
  have layout : stream.input = frame N key nonce packet ++
      rest.drop (b1.toNat * 256 + b2.toNat) := by
    rw [input, frame_cons, ← ciphertext, high, low, List.cons_append, List.cons_append,
      List.take_append_drop]
  have opens := unforged.opens nonce packet found
  rw [Nat.zero_add] at opens
  have framed := readNextPacket_frame packet _ session unused
    (by rw [maxPacketPayloadLength_eq]; exact bound) opens layout
  rw [accepted] at framed
  exact ⟨packet, _, found, layout, (Prod.mk.inj framed).2⟩

/-- Where in the mail the stream is: `nonce` packets are accepted, and `pending`
is what is left of the last of them. -/
def At (sent : List Packet) (stream : MailDecryptingStream N) (nonce : Nat) (pending : Bytes) :
    Prop :=
  (stream.currentUserBytesIndex = -1 ∧ stream.currentUserBytesLength = 0 ∧ pending = [] ∧
    sent.length ≤ nonce) ∨
  (0 ≤ stream.currentUserBytesIndex ∧
    stream.currentUserBytesIndex + pending.length = stream.currentUserBytesLength ∧
    ∀ k, k < pending.length →
      stream.currentDecryptedBuffer[stream.currentUserBytesIndex.toNat + k]? = pending[k]?)

theorem at_afterFrame {stream : MailDecryptingStream N} {nonce : Nat} {packet : Packet}
    {rest : Bytes} (found : sent[nonce]? = some packet)
    (lastOnly : ∀ index other, sent[index]? = some other → other.payloadLength = 0 →
      sent.length ≤ index + 1) :
    At sent (stream.afterFrame ⟨key, nonce⟩ packet rest) (nonce + 1) packet.userBytes := by
  by_cases empty : packet.payloadLength = 0
  · left
    have none : packet.userBytes = [] := by
      apply List.length_eq_zero_iff.mp
      unfold Packet.payloadLength at empty
      omega
    refine ⟨if_pos empty, ?_, none, lastOnly nonce packet found empty⟩
    change ((packet.userBytes.length : Nat) : Int) = 0
    rw [none]
    rfl
  · right
    have index : (stream.afterFrame ⟨key, nonce⟩ packet rest).currentUserBytesIndex = 0 :=
      if_neg empty
    rw [index]
    refine ⟨le_rfl, by simp [afterFrame], ?_⟩
    intro k inside
    simp only [afterFrame, Packet.plaintext, List.append_assoc, Int.toNat_zero, Nat.zero_add]
    rw [List.getElem?_append_left inside]

theorem Yields.authentic {stream : MailDecryptingStream N} {bytes : Bytes} {ending : Ending N}
    (unforged : Unforged N privateKey prologue message key sent)
    (bounded : ∀ packet ∈ sent, packet.payloadLength ≤ maxPacketPayloadLength)
    (lastOnly : ∀ index other, sent[index]? = some other → other.payloadLength = 0 →
      sent.length ≤ index + 1)
    (yields : Yields stream bytes ending) {nonce : Nat} {pending : Bytes}
    (session : stream.cipherState = some ⟨key, nonce⟩) (position : At sent stream nonce pending) :
    bytes <+: pending ++ (sent.drop nonce).flatMap Packet.userBytes ∧
      (ending = .terminator →
        bytes = pending ++ (sent.drop nonce).flatMap Packet.userBytes ∧
          framesFrom N key nonce (sent.drop nonce) <+: stream.input) := by
  induction yields generalizing nonce pending with
  | terminator index length =>
      refine ⟨List.nil_prefix, fun _ => ?_⟩
      rcases position with ⟨_, _, none, finished⟩ | ⟨low, _⟩
      · rw [none, List.drop_of_length_le finished]
        exact ⟨rfl, List.nil_prefix⟩
      · omega
  | rejected drained thrown => exact ⟨List.nil_prefix, fun impossible => by cases impossible⟩
  | @accepted stream after bytes ending drained returned rest ih =>
      obtain ⟨packet, behind, found, input, rfl⟩ :=
        readNextPacket_authentic unforged bounded session returned
      have none : pending = [] := by
        rcases position with ⟨_, _, none, _⟩ | ⟨_, length, _⟩
        · exact none
        · exact List.length_eq_zero_iff.mp (by omega)
      obtain ⟨inRange, packetEq⟩ := List.getElem?_eq_some_iff.mp found
      have head : sent.drop nonce = packet :: sent.drop (nonce + 1) := by
        rw [List.drop_eq_getElem_cons inRange, packetEq]
      have next : (stream.afterFrame ⟨key, nonce⟩ packet behind).cipherState =
          some ⟨key, nonce + 1⟩ := rfl
      obtain ⟨start, whole⟩ := ih next (at_afterFrame found lastOnly)
      rw [none, List.nil_append, head, List.flatMap_cons]
      refine ⟨start, fun last => ?_⟩
      obtain ⟨bytesEq, frames⟩ := whole last
      refine ⟨bytesEq, ?_⟩
      rw [input, framesFrom]
      exact (List.prefix_append_right_inj _).mpr frames
  | @byte stream bytes ending low high bound rest ih =>
      rcases position with ⟨index, _, _, _⟩ | ⟨_, length, content⟩
      · omega
      · cases pending with
        | nil => simp only [List.length_nil] at length; omega
        | cons first pending =>
            have head := content 0 (by simp)
            rw [Nat.add_zero, List.getElem?_cons_zero] at head
            have value : stream.currentDecryptedBuffer.getD
                stream.currentUserBytesIndex.toNat 0 = first := by
              rw [List.getD_eq_getElem?_getD, head]
              rfl
            have next : (stream.advance 1).currentUserBytesIndex.toNat =
                stream.currentUserBytesIndex.toNat + 1 := by
              simp only [advance]
              omega
            have shifted : At sent (stream.advance 1) nonce pending := by
              right
              refine ⟨by simp only [advance]; omega, ?_, ?_⟩
              · simp only [advance, List.length_cons] at length ⊢
                push_cast at length ⊢
                omega
              · intro k inside
                have later := content (k + 1) (by simpa using inside)
                rw [List.getElem?_cons_succ] at later
                rw [next, ← later]
                congr 1
                omega
            obtain ⟨start, whole⟩ := ih session shifted
            rw [value, List.cons_append]
            refine ⟨(List.prefix_cons_inj first).mpr start, fun last => ?_⟩
            obtain ⟨bytesEq, frames⟩ := whole last
            exact ⟨by rw [bytesEq], frames⟩

end MailDecryptingStream

/-! ## Reads up to the first exception -/

namespace ReadResult

def isException : ReadResult → Bool
  | exception _ => true
  | _ => false

def delivered : ReadResult → Bytes
  | byte value => [value]
  | bytes read => read
  | _ => []

end ReadResult

def beforeException (results : List ReadResult) : List ReadResult :=
  results.takeWhile fun result => !result.isException

/-- A call takes what it delivers off the front of the stream. -/
theorem readOf_delivered (body : Bytes) (request : ReadRequest) :
    (readOf body request).1.delivered ++ (readOf body request).2 = body := by
  cases request with
  | one => cases body <;> rfl
  | many size off len =>
      simp only [readOf]
      split
      · rfl
      · split
        · rfl
        · split
          · rename_i empty
            rw [empty]
            rfl
          · exact List.take_append_drop _ _

theorem readOf_endOfStream {body : Bytes} {request : ReadRequest}
    (ended : (readOf body request).1 = .endOfStream) :
    body = [] ∧ 0 < request.demand := by
  cases request with
  | one =>
      cases body with
      | nil => exact ⟨rfl, Nat.one_pos⟩
      | cons byte rest => cases ended
  | many size off len =>
      simp only [readOf] at ended
      split at ended
      · cases ended
      · rename_i valid
        split at ended
        · cases ended
        · rename_i nonzero
          split at ended
          · rename_i empty
            refine ⟨empty, ?_⟩
            simp only [ReadRequest.demand, if_neg valid]
            simp only [MailDecryptingStream.outOfBounds, Bool.or_eq_true, decide_eq_true_eq,
              not_or] at valid
            omega
          · cases ended

/-- A call that is not refused takes what it asks for, or all there is. -/
theorem readOf_length (body : Bytes) (request : ReadRequest)
    (accepted : (readOf body request).1.isException = false) :
    (readOf body request).2.length = body.length - request.demand := by
  cases request with
  | one => cases body <;> simp [readOf, ReadRequest.demand]
  | many size off len =>
      simp only [readOf] at accepted ⊢
      by_cases invalid : MailDecryptingStream.outOfBounds size off len = true
      · simp [invalid, ReadResult.isException] at accepted
      · simp only [ReadRequest.demand, if_neg invalid]
        by_cases zero : len = 0
        · simp [zero]
        · by_cases empty : body = []
          · simp [zero, empty]
          · simp [zero, empty]

namespace MailDecryptingStream

open Attempt

variable {N : Noise}

/-- What the results up to the first exception say about a stream that yields
`body` and then stops. -/
structure Bounded (body : Bytes) (ended : Prop) (reads : List ReadRequest)
    (results : List ReadResult) : Prop where
  delivered : (beforeException results).flatMap ReadResult.delivered <+: body
  complete : .endOfStream ∈ beforeException results →
    ended ∧ (beforeException results).flatMap ReadResult.delivered = body
  exhausted : ¬ ended → body.length < (reads.map ReadRequest.demand).sum →
    ∃ result ∈ results, result.isException = true

/-- An exception at the first call leaves nothing to say. -/
theorem bounded_of_exception (body : Bytes) (ended : Prop) (reads : List ReadRequest)
    (e : StreamException) (rest : List ReadResult) :
    Bounded body ended reads (.exception e :: rest) :=
  ⟨List.nil_prefix, (fun impossible => absurd impossible (by simp [beforeException,
    ReadResult.isException])), fun _ _ => ⟨.exception e, by simp, rfl⟩⟩

theorem runReads_bounded (reads : List ReadRequest) {stream : MailDecryptingStream N}
    {body : Bytes} {ending : Ending N} (yields : Yields stream body ending)
    (headerRead : stream.privateHeaderRead = true) :
    Bounded body (ending = .terminator) reads (runReads reads stream).1 := by
  induction reads generalizing stream body with
  | nil =>
      refine ⟨List.nil_prefix, ?_, ?_⟩
      · intro impossible
        cases impossible
      · intro _ impossible
        simp at impossible
  | cons request rest ih =>
      rw [runReads_cons]
      rcases read_step yields headerRead request with
        ⟨after, ran, kept, behind, complete⟩ | ⟨_, e, after, _, ran⟩
      · rw [ran]
        simp only
        have tail := ih behind (kept.privateHeaderRead.trans headerRead)
        have taken := readOf_delivered body request
        by_cases thrown : (readOf body request).1.isException = true
        · cases result : (readOf body request).1 with
          | exception e => exact bounded_of_exception _ _ _ _ _
          | byte value => rw [result] at thrown; cases thrown
          | bytes read => rw [result] at thrown; cases thrown
          | endOfStream => rw [result] at thrown; cases thrown
        · have step : beforeException
              ((readOf body request).1 :: (runReads rest after).1) =
                (readOf body request).1 :: beforeException (runReads rest after).1 := by
            simp [beforeException, thrown]
          refine ⟨?_, ?_, ?_⟩
          · rw [step, List.flatMap_cons]
            calc (readOf body request).1.delivered ++
                  (beforeException (runReads rest after).1).flatMap ReadResult.delivered
                <+: (readOf body request).1.delivered ++ (readOf body request).2 :=
                  (List.prefix_append_right_inj _).mpr tail.delivered
              _ = body := taken
          · rw [step, List.flatMap_cons]
            intro member
            rcases List.mem_cons.mp member with now | later
            · obtain ⟨empty, positive⟩ := readOf_endOfStream now.symm
              have ended : ending = .terminator := by
                rcases complete with last | enough
                · exact last
                · rw [empty, List.length_nil] at enough
                  omega
              have nothing : (readOf body request).2 = [] := by
                rw [empty] at taken ⊢
                exact (List.append_eq_nil_iff.mp taken).2
              have start := tail.delivered
              rw [nothing, List.prefix_nil] at start
              refine ⟨ended, ?_⟩
              rw [start, ← nothing]
              exact taken
            · obtain ⟨ended, all⟩ := tail.complete later
              exact ⟨ended, by rw [all]; exact taken⟩
          · intro unended enough
            rw [List.map_cons, List.sum_cons] at enough
            have left := readOf_length body request (by simpa using thrown)
            have satisfied := complete.resolve_left unended
            obtain ⟨result, member, isException⟩ := tail.exhausted unended (by omega)
            exact ⟨result, by simp [member], isException⟩
      · rw [ran]
        exact bounded_of_exception _ _ _ _ _

theorem Bounded.weaken {body rest : Bytes} {ended reached : Prop} {reads : List ReadRequest}
    {results : List ReadResult} (bounded : Bounded rest ended reads results)
    (start : rest <+: body) (whole : ended → reached ∧ rest = body) :
    Bounded body reached reads results := by
  refine ⟨bounded.delivered.trans start, ?_, ?_⟩
  · intro member
    obtain ⟨finished, all⟩ := bounded.complete member
    obtain ⟨done, same⟩ := whole finished
    exact ⟨done, all.trans same⟩
  · intro unreached enough
    have length := start.length_le
    exact bounded.exhausted (fun finished => unreached (whole finished).1) (by omega)

/-! ## The first read of an adversarial input -/

section FirstRead

variable {destination : N.PublicKey} {header : EnclaveMailHeaderImpl} {sender : N.PrivateKey}
  {ephemeral : N.Ephemeral} {minSize : Int} {privateHeader : Option Bytes} {body : Bytes}
  {mail : MailEncryptingStream N} {privateKey : N.PrivateKey}

/-- The session of an adversarial input yields a prefix of the plain bytes. -/
theorem exists_yields_session {stream : MailDecryptingStream N} (prologue : Prologue)
    (senderKey : N.PublicKey) (frames : Bytes)
    (layout : MailLayout destination header sender ephemeral minSize
      (plainBytes privateHeader body) mail)
    (unforged : Unforged N privateKey layout.prologue
      (N.writeMessage destination sender ephemeral layout.prologue [0]).1
      (N.writeMessage destination sender ephemeral layout.prologue [0]).2 mail.sent)
    (index : stream.currentUserBytesIndex = 0) (length : stream.currentUserBytesLength = 0) :
    ∃ bytes ending,
      Yields (stream.inSession prologue senderKey
        (N.writeMessage destination sender ephemeral layout.prologue [0]).2 frames) bytes ending ∧
      bytes <+: plainBytes privateHeader body ∧
      (ending = .terminator → bytes = plainBytes privateHeader body ∧
        framesFrom N (N.writeMessage destination sender ephemeral layout.prologue [0]).2 0
          (layout.packets ++ [layout.last]) <+: frames) := by
  generalize keyEq : (N.writeMessage destination sender ephemeral layout.prologue [0]).2 = key
  rw [keyEq] at unforged
  have plain : (mail.sent.drop 0).flatMap Packet.userBytes = plainBytes privateHeader body := by
    rw [List.drop_zero, layout.sent, List.flatMap_append, layout.user]
    simp [layout.lastEmpty]
  have bounded : ∀ packet ∈ mail.sent, packet.payloadLength ≤ maxPacketPayloadLength := by
    rw [layout.sent]
    exact layout.bounded
  have lastOnly : ∀ position other, mail.sent[position]? = some other →
      other.payloadLength = 0 → mail.sent.length ≤ position + 1 := by
    intro position other found empty
    rw [layout.sent] at found ⊢
    by_contra early
    simp only [List.length_append, List.length_singleton] at early
    rw [List.getElem?_append_left (by omega)] at found
    have nonempty := layout.nonempty other (List.mem_of_getElem? found)
    omega
  generalize openedEq : stream.inSession prologue senderKey key frames = opened
  have session : opened.cipherState = some ⟨key, 0⟩ := by rw [← openedEq]; rfl
  have openedIndex : opened.currentUserBytesIndex = 0 := by rw [← openedEq]; exact index
  have openedLength : opened.currentUserBytesLength = 0 := by rw [← openedEq]; exact length
  have input : opened.input = frames := by rw [← openedEq]; rfl
  have settled : Settled opened := Or.inr ⟨by omega, by omega, by omega⟩
  obtain ⟨bytes, ending, yields⟩ := exists_yields _ session settled le_rfl
  have position : At mail.sent opened 0 [] :=
    Or.inr ⟨by omega, by simp; omega, fun k inside => by simp at inside⟩
  obtain ⟨start, whole⟩ := yields.authentic unforged bounded lastOnly session position
  rw [List.nil_append, plain] at start whole
  refine ⟨bytes, ending, yields, start, fun last => ?_⟩
  obtain ⟨all, sentFrames⟩ := whole last
  rw [List.drop_zero, layout.sent, input] at sentFrames
  exact ⟨all, sentFrames⟩

/-- A prefix of the plain bytes that holds the whole private header. -/
theorem plainBytes_prefix {bytes header' rest : Bytes}
    (headerFits : (privateHeader.getD []).length < 2 ^ 31)
    (start : bytes <+: plainBytes privateHeader body) (enough : 4 ≤ bytes.length)
    (size : headerSize bytes = header'.length) (split : bytes.drop 4 = header' ++ rest) :
    rest <+: body ∧ (bytes = plainBytes privateHeader body → rest = body) := by
  have written : plainBytes privateHeader body =
      writeInt (privateHeader.getD []).length ++ ((privateHeader.getD []) ++ body) := by
    rw [plainBytes, List.append_assoc]
  have four : (writeInt (privateHeader.getD []).length).length = 4 := by simp [writeInt]
  have front : bytes.take 4 = writeInt (privateHeader.getD []).length := by
    obtain ⟨more, whole⟩ := start
    have same : (bytes ++ more).take 4 = (plainBytes privateHeader body).take 4 := by rw [whole]
    rw [List.take_append_of_le_length enough, written, ← four, List.take_left, four] at same
    exact same
  have sizeEq : headerSize bytes = ((privateHeader.getD []).length : Int) := by
    rw [← List.take_append_drop 4 bytes, front]
    exact headerSize_writeInt _ _ headerFits
  have behind : header' ++ rest <+: privateHeader.getD [] ++ body := by
    rw [← split]
    have dropped := start.drop 4
    rwa [written, ← four, List.drop_left, four] at dropped
  obtain ⟨more, whole⟩ := behind
  rw [List.append_assoc] at whole
  obtain ⟨_, sameRest⟩ := List.append_inj whole (by omega)
  refine ⟨⟨more, sameRest⟩, fun all => ?_⟩
  have total := congrArg List.length (split.symm.trans (congrArg (List.drop 4) all))
  rw [written, ← four, List.drop_left, List.length_append, List.length_append] at total
  have lengths := congrArg List.length sameRest
  rw [List.length_append] at lengths
  have none : more = [] := List.length_eq_zero_iff.mp (by omega)
  rw [none, List.append_nil] at sameRest
  exact sameRest

/-- The first read of an adversarial input throws, or leaves a stream that
yields part of the body, and all of it only behind the whole mail. -/
theorem maybeReadPrivateHeader_adversarial {stream : MailDecryptingStream N} {input : Bytes}
    (layout : MailLayout destination header sender ephemeral minSize
      (plainBytes privateHeader body) mail)
    (headerFits : (privateHeader.getD []).length < 2 ^ 31)
    (unforged : Unforged N privateKey layout.prologue
      (N.writeMessage destination sender ephemeral layout.prologue [0]).1
      (N.writeMessage destination sender ephemeral layout.prologue [0]).2 mail.sent)
    (fresh : Fresh stream input privateKey) :
    (∃ e after, maybeReadPrivateHeader stream = (.error e, after)) ∨
    ∃ after rest ending, maybeReadPrivateHeader stream = (.ok (), after) ∧
      after.privateHeaderRead = true ∧ Yields after rest ending ∧ rest <+: body ∧
      (ending = .terminator → mail.out <+: input ∧ rest = body) := by
  cases split : splitPrologue input with
  | error failure =>
      exact Or.inl ⟨_, _, maybeReadPrivateHeader_truncated fresh split⟩
  | ok pair =>
      obtain ⟨raw, rest⟩ := pair
      cases parsed : parsePrologue raw with
      | error e => exact Or.inl ⟨_, _, maybeReadPrivateHeader_unparsed fresh split parsed⟩
      | ok prologue =>
          cases established : maybeHandshake (stream.afterPrologue prologue rest) with
          | mk outcome middle =>
              cases outcome with
              | error e =>
                  rcases maybeReadPrivateHeader_noSession fresh split parsed established with
                    first | ⟨first, yields⟩
                  · exact Or.inl ⟨_, _, first⟩
                  · exact Or.inr ⟨_, [], _, first, rfl, yields, List.nil_prefix,
                      fun impossible => by cases impossible⟩
              | ok cipherState =>
                  obtain ⟨message, frames, senderKey, key, restEq, messageLength, opened, _⟩ :=
                    maybeHandshake_inverted fresh established
                  rw [parsePrologue_raw parsed] at opened
                  obtain ⟨rawEq, messageEq, keyEq⟩ := unforged.handshake _ _ _ _ opened
                  have small := splitPrologue_raw_length split
                  rw [rawEq, computePrologue_length layout.computed] at small
                  have same := parsePrologue_computePrologue layout.computed small
                  rw [← rawEq, parsed] at same
                  have protocol : prologue.protocol = .senderKeyTransmittedV2 := by
                    cases same
                    rfl
                  have first := maybeReadPrivateHeader_fresh fresh split parsed
                  rw [if_neg (by rw [protocol]; decide), restEq] at first
                  rw [← parsePrologue_raw parsed] at opened
                  have received := receivePrivateHeader_fresh frames fresh messageLength opened
                  rw [keyEq] at received
                  obtain ⟨bytes, ending, yields, start, whole⟩ :=
                    exists_yields_session prologue senderKey frames layout unforged
                      fresh.index fresh.length
                  have outcome := yields.receivePrivateHeader
                  rw [← received] at outcome
                  generalize resultEq : receivePrivateHeader
                    (stream.afterPrologue prologue (message ++ frames)) = result at outcome
                  cases outcome with
                  | received header' rest' middle size behind enough kept yields' =>
                      right
                      obtain ⟨part, all⟩ := plainBytes_prefix headerFits start enough size behind
                      refine ⟨_, rest', _, first.trans (handle_ok resultEq),
                        kept.privateHeaderRead, yields'.withPrivateHeader _ _, part, ?_⟩
                      intro mapped
                      have last : ending = .terminator := by
                        cases ending with
                        | terminator => rfl
                        | failure e after => cases mapped
                      obtain ⟨complete, sentFrames⟩ := whole last
                      refine ⟨?_, all complete⟩
                      rw [splitPrologue_layout split, rawEq, restEq, messageEq, layout.out,
                        List.append_assoc, List.prefix_append_right_inj,
                        List.prefix_append_right_inj]
                      exact sentFrames
                  | rejected e after failed =>
                      exact Or.inl ⟨_, _, first.trans ((handle_error resultEq).trans
                        (headerFailed_eq _ _))⟩
                  | ended e after last short =>
                      exact Or.inl ⟨_, _, first.trans ((handle_error resultEq).trans
                        (headerFailed_eq _ _))⟩
                  | negative after negative =>
                      exact Or.inl ⟨_, _, first.trans ((handle_error resultEq).trans
                        (headerFailed_eq _ _))⟩

end FirstRead

/-- Every sequence of reads of an adversarial input, up to its first exception. -/
theorem runReads_adversarial {destination : N.PublicKey} {header : EnclaveMailHeaderImpl}
    {sender : N.PrivateKey} {ephemeral : N.Ephemeral} {minSize : Int}
    {privateHeader : Option Bytes} {body : Bytes} {mail : MailEncryptingStream N}
    {privateKey : N.PrivateKey}
    (layout : MailLayout destination header sender ephemeral minSize
      (plainBytes privateHeader body) mail)
    (headerFits : (privateHeader.getD []).length < 2 ^ 31)
    (unforged : Unforged N privateKey layout.prologue
      (N.writeMessage destination sender ephemeral layout.prologue [0]).1
      (N.writeMessage destination sender ephemeral layout.prologue [0]).2 mail.sent)
    (input : Bytes) (reads : List ReadRequest) :
    Bounded body (mail.out <+: input) reads
      (runReads reads (new input (some privateKey))).1 := by
  cases reads with
  | nil =>
      refine ⟨List.nil_prefix, ?_, ?_⟩
      · intro impossible
        cases impossible
      · intro _ impossible
        simp at impossible
  | cons request rest =>
      rcases maybeReadPrivateHeader_adversarial layout headerFits unforged
        (fresh_new input privateKey) with
          ⟨e, after, thrown⟩ | ⟨after, bytes, ending, first, headerRead, yields, part, whole⟩
      · have ran : read request (new input (some privateKey)) = (.error e, after) :=
          bind_error thrown
        rw [runReads_cons, ran]
        exact bounded_of_exception _ _ _ _ _
      · have same : runReads (request :: rest) (new input (some privateKey)) =
            runReads (request :: rest) after := by
          rw [runReads_cons, runReads_cons, read_after_header request first headerRead]
        rw [same]
        exact (runReads_bounded _ yields headerRead).weaken part whole

end MailDecryptingStream

/-! ## Tampering with a mail -/

/-- A mail up to its first packet. -/
def preamble (N : Noise) (destination : N.PublicKey) (sender : N.PrivateKey)
    (ephemeral : N.Ephemeral) (prologue : Bytes) : Bytes :=
  writeShort prologue.length ++ prologue ++
    (N.writeMessage destination sender ephemeral prologue [0]).1

def frameList (N : Noise) (key : N.CipherKey) : Nat → List Packet → List Bytes
  | _, [] => []
  | nonce, packet :: rest => frame N key nonce packet :: frameList N key (nonce + 1) rest

theorem frameList_flatten (N : Noise) (key : N.CipherKey) (nonce : Nat)
    (packets : List Packet) :
    (frameList N key nonce packets).flatten = framesFrom N key nonce packets := by
  induction packets generalizing nonce with
  | nil => rfl
  | cons packet rest ih => rw [frameList, List.flatten_cons, ih, framesFrom]

theorem frameList_length (N : Noise) (key : N.CipherKey) (nonce : Nat)
    (packets : List Packet) : (frameList N key nonce packets).length = packets.length := by
  induction packets generalizing nonce with
  | nil => rfl
  | cons packet rest ih => rw [frameList, List.length_cons, List.length_cons, ih]

theorem frameList_getElem? (N : Noise) (key : N.CipherKey) (nonce : Nat)
    (packets : List Packet) (k : Nat) :
    (frameList N key nonce packets)[k]? = packets[k]?.map (frame N key (nonce + k)) := by
  induction packets generalizing nonce k with
  | nil => rfl
  | cons packet rest ih =>
      cases k with
      | zero => rfl
      | succ k =>
          rw [frameList, List.getElem?_cons_succ, List.getElem?_cons_succ, ih]
          congr 2
          omega

/-- The ways of tampering with a mail of the given packets: cutting it anywhere,
leaving out packets, changing their order, and repeating a packet.  A copy
behind the last packet is left out, and so is a copy of the last packet right
in front of it, which makes the same bytes. -/
inductive Tampered (start : Bytes) (frames : List Bytes) : Bytes → Prop
  | truncated (input : Bytes) (part : input <+: start ++ frames.flatten)
      (changed : input ≠ start ++ frames.flatten) : Tampered start frames input
  | deleted (kept : List Bytes) (part : kept.Sublist frames) (changed : kept ≠ frames) :
      Tampered start frames (start ++ kept.flatten)
  | reordered (order : List Bytes) (same : order.Perm frames) (changed : order ≠ frames) :
      Tampered start frames (start ++ order.flatten)
  | duplicated (source target : Nat) (copied : Bytes) (copy : frames[source]? = some copied)
      (before : target < frames.length)
      (moved : target = frames.length - 1 → source ≠ frames.length - 1) :
      Tampered start frames (start ++ (frames.insertIdx target copied).flatten)

/-- A packet on the wire: its length in two bytes, and as many bytes. -/
def isFrame (word : Bytes) : Prop :=
  ∃ content : Bytes, content.length < 65536 ∧ word = writeShort content.length ++ content

open MailDecryptingStream in
theorem isFrame_prefixFree : PrefixFree isFrame := by
  refine ⟨?_, ?_⟩
  · rintro ⟨content, _, word⟩
    have length := congrArg List.length word
    simp [writeShort] at length
    omega
  · rintro _ _ leftRest rightRest ⟨left, leftSmall, rfl⟩ ⟨right, rightSmall, rfl⟩ whole
    rw [List.append_assoc, List.append_assoc, writeShort_eq, writeShort_eq] at whole
    simp only [List.cons_append, List.nil_append, List.cons.injEq] at whole
    obtain ⟨high, low, contents⟩ := whole
    have size : left.length = right.length := by
      have leftSize := shortValue leftSmall
      have rightSize := shortValue rightSmall
      rw [← high, ← low] at rightSize
      omega
    rw [(List.append_inj contents size).1]

theorem isFrame_frame {N : Noise} {key : N.CipherKey} {nonce : Nat} {packet : Packet}
    (bounded : packet.payloadLength ≤ maxPacketPayloadLength) :
    isFrame (frame N key nonce packet) := by
  refine ⟨N.encrypt key nonce packet.plaintext, ?_, rfl⟩
  rw [maxPacketPayloadLength_eq] at bounded
  rw [N.encrypt_length, packet.plaintext_length, macLength_eq]
  omega

section Edits

variable {N : Noise} {destination : N.PublicKey} {header : EnclaveMailHeaderImpl}
  {sender : N.PrivateKey} {ephemeral : N.Ephemeral} {minSize : Int} {plain input : Bytes}
  {mail : MailEncryptingStream N}

theorem MailLayout.frames_are_words
    (layout : MailLayout destination header sender ephemeral minSize plain mail)
    (key : N.CipherKey) : ∀ word ∈ frameList N key 0 mail.sent, isFrame word := by
  intro word member
  obtain ⟨k, inside, found⟩ := List.mem_iff_getElem.mp member
  have entry := List.getElem?_eq_getElem inside
  rw [frameList_getElem?, found] at entry
  obtain ⟨packet, sentAt, rfl⟩ := Option.map_eq_some_iff.mp entry
  rw [layout.sent] at sentAt
  exact isFrame_frame (layout.bounded packet (List.mem_of_getElem? sentAt))

/-- The terminator's frame is the last one, and there is no other like it. -/
theorem MailLayout.last_frame
    (layout : MailLayout destination header sender ephemeral minSize plain mail)
    (nonnegative : 0 ≤ minSize) (key : N.CipherKey) :
    let frames := frameList N key 0 mail.sent
    frames[frames.length - 1]? =
        some (frame N key (frames.length - 1) Packet.terminator) ∧
      ∀ index, frames[index]? = some (frame N key (frames.length - 1) Packet.terminator) →
        index = frames.length - 1 := by
  have size : (frameList N key 0 mail.sent).length - 1 = layout.packets.length := by
    rw [frameList_length, layout.sent, List.length_append, List.length_singleton,
      Nat.add_sub_cancel]
  simp only [size]
  simp only [frameList_getElem?, Nat.zero_add, layout.sent]
  refine ⟨?_, ?_⟩
  · rw [List.getElem?_append_right le_rfl, Nat.sub_self, layout.terminator nonnegative]
    rfl
  · intro index found
    obtain ⟨packet, sentAt, same⟩ := Option.map_eq_some_iff.mp found
    have length := congrArg List.length same
    rw [frame_length, frame_length] at length
    have inside := (List.getElem?_eq_some_iff.mp sentAt).1
    rw [List.length_append, List.length_singleton] at inside
    by_contra other
    rw [List.getElem?_append_left (by omega)] at sentAt
    have positive := layout.nonempty packet (List.mem_of_getElem? sentAt)
    have zero : Packet.terminator.payloadLength = 0 := rfl
    omega

/-- No tampering keeps the mail whole at the start of the input. -/
theorem MailLayout.not_prefix_of_tampered
    (layout : MailLayout destination header sender ephemeral minSize plain mail)
    (nonnegative : 0 ≤ minSize)
    (tampered : Tampered (preamble N destination sender ephemeral layout.prologue)
      (frameList N (N.writeMessage destination sender ephemeral layout.prologue [0]).2 0 mail.sent)
      input) : ¬ mail.out <+: input := by
  generalize keyEq : (N.writeMessage destination sender ephemeral layout.prologue [0]).2 = key
    at tampered
  have out : mail.out = preamble N destination sender ephemeral layout.prologue ++
      (frameList N key 0 mail.sent).flatten := by
    rw [layout.out, frameList_flatten, layout.sent, keyEq]
    rfl
  have words := layout.frames_are_words key
  obtain ⟨last, once⟩ := layout.last_frame nonnegative key
  rw [out]
  generalize frameList N key 0 mail.sent = frames at words last once tampered ⊢
  cases tampered with
  | truncated _ part changed =>
      intro start
      exact changed (part.eq_of_length_le start.length_le)
  | deleted kept part changed =>
      rw [List.prefix_append_right_inj]
      intro start
      exact not_prefix_of_sublist part changed
        (isFrame_prefixFree.prefix_of_flatten words
          (fun word member => words word (part.subset member)) start)
  | reordered order same changed =>
      rw [List.prefix_append_right_inj]
      intro start
      exact not_prefix_of_perm same changed
        (isFrame_prefixFree.prefix_of_flatten words
          (fun word member => words word (same.subset member)) start)
  | duplicated source target copied copy before moved =>
      rw [List.prefix_append_right_inj]
      intro start
      refine not_prefix_of_insertIdx last once copy before moved
        (isFrame_prefixFree.prefix_of_flatten words ?_ start)
      intro word member
      rcases List.eq_or_mem_of_mem_insertIdx member with rfl | old
      · exact words _ (List.mem_of_getElem? copy)
      · exact words word old

end Edits

open MailDecryptingStream in
/-- Whatever the input, a reader sees a prefix of the one mail's body up to its
first exception, and the end of the stream only behind the whole mail.  So if
packets are missing, out of order or repeated the reader runs into an exception. -/
theorem runReads_authentic {N : Noise} {destination : N.PublicKey}
    {sender privateKey : N.PrivateKey}
    {ephemeral : N.Ephemeral} {prologue : Bytes} {mail : MailEncryptingStream N}
    (header : EnclaveMailHeaderImpl) (privateHeader : Option Bytes) (minSize capacity : Nat)
    (requests : List WriteRequest) (headerFits : (privateHeader.getD []).length < 2 ^ 31)
    (run : encrypt destination header privateHeader sender minSize ephemeral capacity requests =
      .ok mail)
    (computed : computePrologue .senderKeyTransmittedV2 header = .ok prologue)
    (unforged : Unforged N privateKey prologue
      (N.writeMessage destination sender ephemeral prologue [0]).1
      (N.writeMessage destination sender ephemeral prologue [0]).2 mail.sent)
    (input : Bytes) (reads : List ReadRequest) :
    let body := requests.flatMap WriteRequest.written
    let results := (runReads reads (new input (some privateKey))).1
    (beforeException results).flatMap ReadResult.delivered <+: body ∧
      (.endOfStream ∈ beforeException results → mail.out <+: input ∧
        (beforeException results).flatMap ReadResult.delivered = body) ∧
      (Tampered (preamble N destination sender ephemeral prologue)
          (frameList N (N.writeMessage destination sender ephemeral prologue [0]).2 0 mail.sent)
          input →
        .endOfStream ∉ beforeException results ∧
          (body.length < (reads.map ReadRequest.demand).sum →
            ∃ result ∈ results, result.isException = true)) := by
  obtain ⟨layout⟩ := encrypt_layout run
  have same : layout.prologue = prologue := Except.ok.inj (layout.computed.symm.trans computed)
  subst same
  have bounded := runReads_adversarial layout headerFits unforged input reads
  refine ⟨bounded.delivered, bounded.complete, fun tampered => ?_⟩
  have broken := layout.not_prefix_of_tampered (Int.natCast_nonneg _) tampered
  exact ⟨fun member => broken (bounded.complete member).1, bounded.exhausted broken⟩

/-! ## One recorded mail -/

/-- Noise as the receiver of a single mail sees it: its key knows the prologue,
the handshake message and the plaintexts of that mail and opens nothing else.
The sender's script of plaintexts stands for the ephemeral key. -/
def recordedNoise : Noise where
  PrivateKey := UInt8 × Bytes × Bytes × List Bytes
  PublicKey := UInt8
  Ephemeral := List Bytes
  CipherKey := List Bytes
  publicKey := Prod.fst
  writeMessage _ sender plaintexts _ payload :=
    (sender.1 :: List.replicate 95 0 ++ payload, plaintexts)
  readMessage privateKey prologue message :=
    if prologue = privateKey.2.1 ∧ message = privateKey.2.2.1 then
      .ok (message.headD 0, privateKey.2.2.2)
    else .error .badTag
  encrypt _ _ plaintext := plaintext ++ List.replicate macLength 0
  decrypt plaintexts nonce ciphertext :=
    match plaintexts[nonce]? with
    | none => none
    | some plaintext =>
        if ciphertext = plaintext ++ List.replicate macLength 0 then some plaintext else none
  writeMessage_length := by
    intro _ _ _ _ payload
    simp only [List.length_append, List.length_cons, List.length_replicate]
  encrypt_length := by
    intro _ _ plaintext
    simp
  decrypt_length := by
    intro plaintexts nonce ciphertext plaintext opened
    split at opened
    · cases opened
    · split at opened
      · rename_i same
        cases opened
        rw [same, List.length_append, List.length_replicate]
      · cases opened

theorem recordedNoise_unforged (receiver : UInt8) (prologue message : Bytes)
    (sent : List Packet) :
    Unforged recordedNoise (receiver, prologue, message, sent.map Packet.plaintext) prologue
      message (sent.map Packet.plaintext) sent := by
  refine ⟨?_, ?_, ?_⟩
  · intro k packet found
    simp [recordedNoise, found]
  · intro nonce ciphertext plaintext opened
    simp only [recordedNoise, List.getElem?_map] at opened
    cases found : sent[nonce]? with
    | none => simp [found] at opened
    | some packet =>
        simp only [found, Option.map_some] at opened
        split at opened
        · rename_i same
          exact ⟨packet, rfl, same⟩
        · cases opened
  · intro raw hello sender sessionKey opened
    simp only [recordedNoise] at opened
    split at opened
    · rename_i same
      cases opened
      exact ⟨same.1, same.2, rfl⟩
    · cases opened

def recordedHeader : EnclaveMailHeaderImpl := ⟨0, [116], none, none⟩

def recordedPrologue : Bytes := [1, 0, 0, 0, 0, 0, 0, 0, 0, 0, 1, 116, 0, 0, 0, 0]

def recordedMessage : Bytes := 2 :: List.replicate 95 0 ++ [0]

def recordedPackets : List Packet := [⟨[0, 0, 0, 0, 7], 0⟩, Packet.terminator]

def recordedSender : UInt8 × Bytes × Bytes × List Bytes := (2, [], [], [])

def recordedReceiver : UInt8 × Bytes × Bytes × List Bytes :=
  (1, recordedPrologue, recordedMessage, recordedPackets.map Packet.plaintext)

/-- One sender, one body byte. -/
def recordedMail : Except WriteException (MailEncryptingStream recordedNoise) :=
  encrypt (N := recordedNoise) (1 : UInt8) recordedHeader none recordedSender ((0 : Nat) : Int)
    (recordedPackets.map Packet.plaintext) 200 [.byte 7]

theorem recordedMail_sent :
    ∃ mail, recordedMail = .ok mail ∧ mail.sent = recordedPackets := by
  have sent : recordedMail.toOption.map (fun mail => mail.sent) = some recordedPackets := by
    decide +kernel
  cases run : recordedMail with
  | error e =>
      rw [run] at sent
      cases sent
  | ok mail =>
      rw [run] at sent
      exact ⟨mail, rfl, Option.some.inj sent⟩

theorem recordedPrologue_computed :
    computePrologue .senderKeyTransmittedV2 recordedHeader = .ok recordedPrologue := by
  decide +kernel

theorem recordedMail_unforged {mail : MailEncryptingStream recordedNoise}
    (sent : mail.sent = recordedPackets) :
    Unforged recordedNoise recordedReceiver recordedPrologue recordedMessage
      (recordedPackets.map Packet.plaintext) mail.sent := by
  rw [sent]
  exact recordedNoise_unforged 1 recordedPrologue recordedMessage recordedPackets

/-- The packets of the recorded mail on the wire. -/
def recordedFrames : List Bytes :=
  frameList recordedNoise (recordedPackets.map Packet.plaintext) 0 recordedPackets

def recordedPreamble : Bytes :=
  preamble recordedNoise (1 : UInt8) recordedSender (recordedPackets.map Packet.plaintext)
    recordedPrologue

open MailDecryptingStream in
/-- The mail without its terminator: no read reports the end of the stream. -/
theorem runReads_authentic_recordedMail :
    ∃ mail, recordedMail = .ok mail ∧
      (.endOfStream ∉ beforeException (runReads [.one, .one] (new (N := recordedNoise)
        (recordedPreamble ++ (recordedFrames.take 1).flatten) (some recordedReceiver))).1) ∧
      ∃ result ∈ (runReads [.one, .one] (new (N := recordedNoise)
        (recordedPreamble ++ (recordedFrames.take 1).flatten) (some recordedReceiver))).1,
          result.isException = true := by
  obtain ⟨mail, run, sent⟩ := recordedMail_sent
  have reads := runReads_authentic (N := recordedNoise) recordedHeader none 0 200
    [.byte 7] (by decide) run recordedPrologue_computed (recordedMail_unforged sent)
    (recordedPreamble ++ (recordedFrames.take 1).flatten) [.one, .one]
  have tampered : Tampered recordedPreamble recordedFrames
      (recordedPreamble ++ (recordedFrames.take 1).flatten) :=
    Tampered.deleted _ (List.take_sublist _ _) (by decide)
  rw [sent] at reads
  obtain ⟨noEnd, thrown⟩ := reads.2.2 tampered
  exact ⟨mail, run, noEnd, thrown (by decide)⟩

open MailDecryptingStream in
/-- A copy of the terminator behind the terminator is never looked at. -/
theorem runReads_repeated_terminator :
    ∃ mail, recordedMail = .ok mail ∧ mail.sent = recordedPackets ∧
      Unforged recordedNoise recordedReceiver recordedPrologue recordedMessage
        (recordedPackets.map Packet.plaintext) mail.sent ∧
      ∃ copied, recordedFrames[1]? = some copied ∧
        (runReads [.one, .one] (new (N := recordedNoise)
          (recordedPreamble ++ (recordedFrames.insertIdx 2 copied).flatten)
          (some recordedReceiver))).1 = [.byte 7, .endOfStream] := by
  obtain ⟨mail, run, sent⟩ := recordedMail_sent
  refine ⟨mail, run, sent, recordedMail_unforged sent, [0, 18] ++ List.replicate 18 0,
    by decide +kernel, ?_⟩
  decide +kernel

end Conclave.Mail
