import Mathlib.Data.List.GetD
import ConclaveFormal.Mail.FirstRead
import ConclaveFormal.Mail.MailSize

/-!
# The mail stream round trip

`readOf` is the behaviour of an in-memory stream over the body, the abstract
object a reader of a mail should not be able to tell from the decrypting stream.
`read_step` shows that the decrypting stream follows it as far as the bytes it
yields go, `yields_framesFrom` that an honest mail yields its plain bytes up to
the terminator, and `runReads_encrypt` puts sender and receiver together.
-/

set_option autoImplicit false

namespace Conclave.Mail

open Conclave.Lib

/-! ## An in-memory stream -/

namespace ReadRequest

/-- The number of bytes a call asks the stream for. -/
def demand : ReadRequest → Nat
  | one => 1
  | many size off len =>
      if MailDecryptingStream.outOfBounds size off len then 0 else len.toNat

end ReadRequest

/-- One call on a stream that has `body` left: the result and the rest. -/
def readOf (body : Bytes) : ReadRequest → ReadResult × Bytes
  | .one =>
      match body with
      | [] => (.endOfStream, [])
      | byte :: rest => (.byte byte, rest)
  | .many size off len =>
      if MailDecryptingStream.outOfBounds size off len then (.exception .indexOutOfBounds, body)
      else if len = 0 then (.bytes [], body)
      else if body = [] then (.endOfStream, [])
      else (.bytes (body.take len.toNat), body.drop len.toNat)

def readsOf : Bytes → List ReadRequest → List ReadResult
  | _, [] => []
  | body, request :: rest => (readOf body request).1 :: readsOf (readOf body request).2 rest

namespace MailDecryptingStream

open Attempt

variable {N : Noise}

/-! ## The decrypting stream follows the in-memory one -/

/-- What the caller of `read` sees. -/
def report : Except StreamException ReadResult × MailDecryptingStream N →
    ReadResult × MailDecryptingStream N
  | (.ok result, stream) => (result, stream)
  | (.error e, stream) => (.exception e, stream)

theorem runReads_cons (request : ReadRequest) (rest : List ReadRequest)
    (stream : MailDecryptingStream N) :
    runReads (request :: rest) stream =
      ((report (read request stream)).1 :: (runReads rest (report (read request stream)).2).1,
        (runReads rest (report (read request stream)).2).2) := by
  rw [runReads]
  cases read request stream with
  | mk outcome after => cases outcome <;> rfl

theorem read_of_headerRead {stream : MailDecryptingStream N} (request : ReadRequest)
    (headerRead : stream.privateHeaderRead = true) :
    read request stream =
      (match request with
        | .one => do
            let byte ← readUserByte
            pure (match byte with
              | some value => .byte value
              | none => .endOfStream)
        | .many size off len =>
            if outOfBounds size off len then throw .indexOutOfBounds
            else if len = 0 then pure (.bytes [])
            else do
              let bytes ← readUserBytes len.toNat
              pure (if bytes = [] then .endOfStream else .bytes bytes) :
        Reading N ReadResult) stream := by
  have skipped : maybeReadPrivateHeader stream = (.ok (), stream) := by
    simp [maybeReadPrivateHeader, headerRead]
  unfold read
  exact bind_ok skipped

theorem read_step {stream : MailDecryptingStream N} {body : Bytes} {ending : Ending N}
    (yields : Yields stream body ending) (headerRead : stream.privateHeaderRead = true)
    (request : ReadRequest) :
    (∃ after, report (read request stream) = ((readOf body request).1, after) ∧
      Keeps stream after ∧ Yields after (readOf body request).2 ending ∧
      (ending = .terminator ∨ request.demand ≤ body.length)) ∨
    (body.length < request.demand ∧ ∃ e after, ending = .failure e after ∧
      read request stream = (.error e, after)) := by
  rw [read_of_headerRead request headerRead]
  cases request with
  | one =>
      simp only [readOf, ReadRequest.demand]
      cases body with
      | cons byte rest =>
          obtain ⟨after, ran, kept, yields⟩ := yields.readUserByte_byte
          rw [bind_ok ran]
          exact Or.inl ⟨after, rfl, kept, yields, Or.inr (by simp)⟩
      | nil =>
          cases ending with
          | terminator =>
              obtain ⟨after, ran, kept, yields⟩ := yields.readUserByte_end
              rw [bind_ok ran]
              exact Or.inl ⟨after, rfl, kept, yields, Or.inl rfl⟩
          | failure e after =>
              rw [bind_error yields.readUserByte_failure]
              exact Or.inr ⟨by simp, e, after, rfl, rfl⟩
  | many size off len =>
      simp only [readOf, ReadRequest.demand]
      by_cases invalid : outOfBounds size off len = true
      · simp only [if_pos invalid]
        exact Or.inl ⟨stream, rfl, Keeps.refl stream, yields, Or.inr (by omega)⟩
      · simp only [if_neg invalid]
        by_cases zero : len = 0
        · simp only [if_pos zero]
          exact Or.inl ⟨stream, rfl, Keeps.refl stream, yields, Or.inr (by omega)⟩
        · simp only [if_neg zero]
          have positive : 0 < len.toNat := by
            simp only [outOfBounds, Bool.or_eq_true, decide_eq_true_eq, not_or] at invalid
            omega
          rcases yields.readUserBytes len.toNat positive with
            ⟨after, ran, kept, rest, complete⟩ | ⟨short, e, after, failed, ran⟩
          · rw [bind_ok ran]
            refine Or.inl ⟨after, ?_, kept, ?_, complete.symm⟩
            · by_cases empty : body = []
              · simp [empty, report]
              · have some : body.take len.toNat ≠ [] := by
                  intro none
                  have length := congrArg List.length none
                  have nonempty := List.length_pos_iff.mpr empty
                  rw [List.length_take, List.length_nil] at length
                  omega
                simp [empty, some, report]
            · by_cases empty : body = []
              · simpa [empty] using rest
              · simpa [empty] using rest
          · rw [bind_error ran]
            exact Or.inr ⟨short, e, after, failed, rfl⟩

theorem runReads_of_yields (requests : List ReadRequest) {stream : MailDecryptingStream N}
    {body : Bytes} (yields : Yields stream body .terminator)
    (headerRead : stream.privateHeaderRead = true) :
    (runReads requests stream).1 = readsOf body requests ∧
      Keeps stream (runReads requests stream).2 := by
  induction requests generalizing stream body with
  | nil => exact ⟨rfl, Keeps.refl stream⟩
  | cons request rest ih =>
      rcases read_step yields headerRead request with
        ⟨after, ran, kept, yields, _⟩ | ⟨_, _, _, impossible, _⟩
      · obtain ⟨results, keptRest⟩ := ih yields (kept.privateHeaderRead.trans headerRead)
        rw [runReads_cons, ran]
        simp only
        exact ⟨by rw [results, readsOf], kept.trans keptRest⟩
      · cases impossible

/-! ## Honest packets -/

theorem writeShort_eq (value : Nat) :
    writeShort value = [UInt8.ofNat (value / 256), UInt8.ofNat value] := by
  simp [writeShort, bigEndian]

theorem shortValue {value : Nat} (fits : value < 65536) :
    (UInt8.ofNat (value / 256)).toNat * 256 + (UInt8.ofNat value).toNat = value := by
  simp only [UInt8.toNat_ofNat']
  omega

/-- Two bytes are the encoding of the value they stand for. -/
theorem writeShort_bytes (b1 b2 : UInt8) :
    writeShort (b1.toNat * 256 + b2.toNat) = [b1, b2] := by
  have high := b1.toNat_lt
  have low := b2.toNat_lt
  have first : UInt8.ofNat ((b1.toNat * 256 + b2.toNat) / 256) = b1 := by
    apply UInt8.toNat_inj.mp
    rw [UInt8.toNat_ofNat']
    omega
  have second : UInt8.ofNat (b1.toNat * 256 + b2.toNat) = b2 := by
    apply UInt8.toNat_inj.mp
    rw [UInt8.toNat_ofNat']
    omega
  rw [writeShort_eq, first, second]

theorem readShort_plaintext (packet : Packet) (fits : packet.userBytes.length < 65536) :
    readShort packet.plaintext (packet.plaintext.length - 2) = packet.userBytes.length := by
  have position : packet.plaintext.length - 2 =
      (packet.userBytes ++ List.replicate packet.padding 0).length := by
    rw [packet.plaintext_length, Packet.payloadLength]
    simp
  rw [position, readShort, Packet.plaintext, writeShort_eq,
    List.getD_append_right _ _ _ _ (by omega), List.getD_append_right _ _ _ _ (by omega)]
  simp only [Nat.sub_self, Nat.add_sub_cancel_left, List.getD_cons_zero, List.getD_cons_succ]
  exact shortValue fits

/-- The stream after it has accepted `packet`. -/
def afterFrame (stream : MailDecryptingStream N) (cipherState : CipherState N) (packet : Packet)
    (rest : Bytes) : MailDecryptingStream N :=
  { stream with
    input := rest
    cipherState := some { cipherState with nonce := cipherState.nonce + 1 }
    currentDecryptedBuffer := packet.plaintext ++
      stream.currentDecryptedBuffer.drop packet.plaintext.length
    currentUserBytesLength := packet.userBytes.length
    currentUserBytesIndex := if packet.payloadLength = 0 then -1 else 0 }

theorem frame_cons (N : Noise) (key : N.CipherKey) (nonce : Nat) (packet : Packet) :
    frame N key nonce packet =
      UInt8.ofNat ((packet.payloadLength + 18) / 256) ::
        UInt8.ofNat (packet.payloadLength + 18) :: N.encrypt key nonce packet.plaintext := by
  have length : (N.encrypt key nonce packet.plaintext).length = packet.payloadLength + 18 := by
    rw [N.encrypt_length, packet.plaintext_length, macLength_eq]
  simp only [frame, length, writeShort_eq]
  rfl

theorem readNextPacket_frame {stream : MailDecryptingStream N} {cipherState : CipherState N}
    (packet : Packet) (rest : Bytes) (session : stream.cipherState = some cipherState)
    (unused : cipherState.nonce ≠ lastNonce)
    (bounded : packet.payloadLength ≤ maxPacketPayloadLength)
    (opens : N.decrypt cipherState.key cipherState.nonce
      (N.encrypt cipherState.key cipherState.nonce packet.plaintext) = some packet.plaintext)
    (input : stream.input = frame N cipherState.key cipherState.nonce packet ++ rest) :
    readNextPacket stream = (.ok (), stream.afterFrame cipherState packet rest) := by
  have user : packet.userBytes.length ≤ packet.payloadLength := by
    unfold Packet.payloadLength
    omega
  rw [maxPacketPayloadLength_eq] at bounded
  have encrypted : (N.encrypt cipherState.key cipherState.nonce packet.plaintext).length =
      packet.payloadLength + 18 := by
    rw [N.encrypt_length, packet.plaintext_length, macLength_eq]
  have size : (UInt8.ofNat ((packet.payloadLength + 18) / 256)).toNat * 256 +
      (UInt8.ofNat (packet.payloadLength + 18)).toNat = packet.payloadLength + 18 :=
    shortValue (by omega)
  rw [frame_cons, List.cons_append, List.cons_append] at input
  rw [readNextPacket_whole session input (by rw [size, macLength_eq]; omega)
    (by rw [size, List.length_append, encrypted]; omega)]
  have taken : (N.encrypt cipherState.key cipherState.nonce packet.plaintext ++ rest).take
      (packet.payloadLength + 18) =
        N.encrypt cipherState.key cipherState.nonce packet.plaintext := by
    rw [← encrypted, List.take_left]
  have dropped : (N.encrypt cipherState.key cipherState.nonce packet.plaintext ++ rest).drop
      (packet.payloadLength + 18) = rest := by
    rw [← encrypted, List.drop_left]
  have length := packet.plaintext_length
  rw [size, taken, dropped]
  simp only [CipherState.decryptWithAd, if_neg unused, opens]
  rw [acceptPlaintext_ok (by omega) (by rw [readShort_plaintext packet (by omega)]; omega),
    readShort_plaintext packet (by omega)]
  simp only [afterFrame, length, Nat.add_sub_cancel]

/-- What is in the buffer comes before what is still in the input. -/
theorem yields_buffered (count : Nat) {stream : MailDecryptingStream N} {pending rest : Bytes}
    {ending : Ending N} (low : 0 ≤ stream.currentUserBytesIndex)
    (remaining : stream.currentUserBytesIndex + count = stream.currentUserBytesLength)
    (bound : stream.currentUserBytesLength ≤ maxPacketPlaintextLength)
    (pendingEq : pending = (stream.currentDecryptedBuffer.drop
      stream.currentUserBytesIndex.toNat).take count)
    (inside : stream.currentUserBytesLength ≤ stream.currentDecryptedBuffer.length)
    (yields : Yields (stream.advance count) rest ending) :
    Yields stream (pending ++ rest) ending := by
  induction count generalizing stream pending with
  | zero =>
      subst pendingEq
      have same : stream.advance 0 = stream := by simp [advance]
      rw [same] at yields
      simpa using yields
  | succ count ih =>
      have twice : (stream.advance 1).advance count = stream.advance (count + 1) := by
        unfold advance
        congr 1
        push_cast
        ring
      have position : stream.currentUserBytesIndex.toNat <
          stream.currentDecryptedBuffer.length := by omega
      have next : (stream.advance 1).currentUserBytesIndex.toNat =
          stream.currentUserBytesIndex.toNat + 1 := by
        simp only [advance]
        omega
      have head : pending =
          stream.currentDecryptedBuffer.getD stream.currentUserBytesIndex.toNat 0 ::
            (stream.currentDecryptedBuffer.drop
              (stream.currentUserBytesIndex.toNat + 1)).take count := by
        rw [pendingEq, List.drop_eq_getElem_cons position, List.take_succ_cons,
          List.getD_eq_getElem _ _ position]
      rw [head, List.cons_append]
      refine Yields.byte low (by omega) bound ?_
      refine ih (by simp only [advance]; omega) ?_ bound ?_ inside ?_
      · simp only [advance]
        push_cast at remaining ⊢
        omega
      · rw [next]
        rfl
      · rw [twice]
        exact yields

theorem yields_afterFrame {stream : MailDecryptingStream N} {cipherState : CipherState N}
    {packet : Packet} {input rest : Bytes} {ending : Ending N}
    (nonempty : 0 < packet.payloadLength)
    (bounded : packet.payloadLength ≤ maxPacketPayloadLength)
    (yields : Yields ((stream.afterFrame cipherState packet input).advance
      packet.userBytes.length) rest ending) :
    Yields (stream.afterFrame cipherState packet input) (packet.userBytes ++ rest) ending := by
  have user : packet.userBytes.length ≤ packet.payloadLength := by
    unfold Packet.payloadLength
    omega
  have index : (stream.afterFrame cipherState packet input).currentUserBytesIndex = 0 :=
    if_neg (by omega)
  have length : (stream.afterFrame cipherState packet input).currentUserBytesLength =
      packet.userBytes.length := rfl
  have buffer : (stream.afterFrame cipherState packet input).currentDecryptedBuffer =
      packet.userBytes ++ (List.replicate packet.padding 0 ++
        writeShort packet.userBytes.length ++
          stream.currentDecryptedBuffer.drop packet.plaintext.length) := by
    simp [afterFrame, Packet.plaintext]
  have room : maxPacketPayloadLength ≤ maxPacketPlaintextLength := by
    rw [maxPacketPayloadLength_eq, maxPacketPlaintextLength_eq]
    omega
  refine yields_buffered packet.userBytes.length (by omega) (by omega) (by omega) ?_ ?_ yields
  · rw [index, buffer]
    simp
  · rw [length, buffer, List.length_append]
    omega

/-- The packets of one mail open under `key` from `nonce` on. -/
def Opens (N : Noise) (key : N.CipherKey) (nonce : Nat) (packets : List Packet) : Prop :=
  ∀ k packet, packets[k]? = some packet →
    N.decrypt key (nonce + k) (N.encrypt key (nonce + k) packet.plaintext) = some packet.plaintext

theorem Opens.tail {key : N.CipherKey} {nonce : Nat} {packet : Packet} {packets : List Packet}
    (opens : Opens N key nonce (packet :: packets)) : Opens N key (nonce + 1) packets := by
  intro k other found
  have shifted := opens (k + 1) other (by simpa using found)
  rwa [show nonce + (k + 1) = nonce + 1 + k by omega] at shifted

theorem yields_framesFrom (packets : List Packet) {stream : MailDecryptingStream N}
    {key : N.CipherKey} {nonce : Nat} {rest : Bytes}
    (session : stream.cipherState = some ⟨key, nonce⟩)
    (drained : stream.currentUserBytesIndex = stream.currentUserBytesLength)
    (unused : nonce + packets.length < lastNonce)
    (nonempty : ∀ packet ∈ packets, 0 < packet.payloadLength)
    (bounded : ∀ packet ∈ packets, packet.payloadLength ≤ maxPacketPayloadLength)
    (opens : Opens N key nonce (packets ++ [Packet.terminator]))
    (input : stream.input = framesFrom N key nonce (packets ++ [Packet.terminator]) ++ rest) :
    Yields stream (packets.flatMap Packet.userBytes) .terminator := by
  induction packets generalizing stream nonce with
  | nil =>
      have accepted := readNextPacket_frame Packet.terminator rest session
        (by simp only; simp only [List.length_nil] at unused; omega)
        (by rw [maxPacketPayloadLength_eq]; decide) (opens 0 _ rfl)
        (by simpa [framesFrom] using input)
      exact Yields.accepted drained accepted (Yields.terminator rfl rfl)
  | cons packet packets ih =>
      simp only [List.length_cons] at unused
      have positive := nonempty packet (by simp)
      have bound := bounded packet (by simp)
      have accepted := readNextPacket_frame packet
        (framesFrom N key (nonce + 1) (packets ++ [Packet.terminator]) ++ rest) session
        (by simp only; omega) bound (opens 0 _ rfl)
        (by simpa [framesFrom, List.append_assoc] using input)
      refine Yields.accepted drained accepted ?_
      rw [List.flatMap_cons]
      refine yields_afterFrame positive bound ?_
      have next : ((stream.afterFrame ⟨key, nonce⟩ packet
          (framesFrom N key (nonce + 1) (packets ++ [Packet.terminator]) ++ rest)).advance
            packet.userBytes.length).cipherState = some ⟨key, nonce + 1⟩ := rfl
      refine ih next ?_ (by omega) (fun other member => nonempty other (by simp [member]))
        (fun other member => bounded other (by simp [member])) opens.tail rfl
      change (if packet.payloadLength = 0 then (-1 : Int) else 0) + packet.userBytes.length =
        packet.userBytes.length
      rw [if_neg (by omega)]
      omega

/-! ## The start of a mail -/

theorem splitPrologue_write (prologue rest : Bytes) (fits : prologue.length < 65536) :
    splitPrologue (writeShort prologue.length ++ prologue ++ rest) = .ok (prologue, rest) := by
  have size := shortValue fits
  rw [writeShort_eq]
  change splitPrologue (_ :: _ :: (prologue ++ rest)) = _
  simp only [splitPrologue, size, List.length_append]
  rw [if_pos (by omega), List.take_left, List.drop_left]

theorem splitPrologue_layout {input raw rest : Bytes}
    (split : splitPrologue input = .ok (raw, rest)) :
    input = writeShort raw.length ++ raw ++ rest := by
  unfold splitPrologue at split
  split at split
  · rename_i b1 b2 tail
    simp only at split
    split at split
    · rename_i fits
      cases split
      have length : (tail.take (b1.toNat * 256 + b2.toNat)).length =
          b1.toNat * 256 + b2.toNat := by
        rw [List.length_take]
        omega
      rw [length, writeShort_bytes, List.append_assoc, List.take_append_drop]
      rfl
    · cases split
  · cases split

theorem headerSize_writeInt (size : Nat) (rest : Bytes) (fits : size < 2 ^ 31) :
    headerSize (writeInt size ++ rest) = size := by
  have layout : writeInt size = [UInt8.ofNat (size / 256 ^ 3), UInt8.ofNat (size / 256 ^ 2),
      UInt8.ofNat (size / 256), UInt8.ofNat size] := by
    simp [writeInt, bigEndian]
  rw [layout]
  simp only [headerSize, List.cons_append, List.nil_append, List.getElem?_cons_zero,
    List.getElem?_cons_succ, Option.map_some, Option.getD_some, UInt8.toNat_ofNat']
  rw [wrap32_of_range (by omega) (by omega)]
  omega

/-- Carving out the private header that an honest sender wrote. -/
theorem receivePrivateHeader_plainBytes {stream : MailDecryptingStream N}
    {privateHeader : Option Bytes} {body : Bytes}
    (fits : (privateHeader.getD []).length < 2 ^ 31)
    (yields : Yields stream (plainBytes privateHeader body) .terminator) :
    ∃ middle, receivePrivateHeader stream = (.ok (),
        middle.withPrivateHeader (emptyToNull privateHeader) middle.privateHeaderRead) ∧
      Keeps stream middle ∧ Yields middle body .terminator := by
  have outcome := yields.receivePrivateHeader
  have length := plainBytes_length privateHeader body
  have written : plainBytes privateHeader body =
      writeInt (privateHeader.getD []).length ++ ((privateHeader.getD []) ++ body) := by
    rw [plainBytes, List.append_assoc]
  have size : headerSize (plainBytes privateHeader body) =
      ((privateHeader.getD []).length : Int) := by
    rw [written]
    exact headerSize_writeInt _ _ fits
  have behind : (plainBytes privateHeader body).drop 4 = privateHeader.getD [] ++ body := by
    rw [written]
    have four : (writeInt (privateHeader.getD []).length).length = 4 := by simp [writeInt]
    rw [← four, List.drop_left]
  generalize received : receivePrivateHeader stream = result at outcome
  cases outcome with
  | received header rest middle size' layout _ kept rest' =>
      rw [behind] at layout
      rw [size] at size'
      obtain ⟨sameHeader, sameBody⟩ := List.append_inj layout (by omega)
      refine ⟨middle, ?_, kept, ?_⟩
      · rw [← sameHeader]
        cases privateHeader <;> rfl
      · rw [sameBody]
        exact rest'
  | rejected e after failed => cases failed
  | ended e after last short => omega
  | negative after negative => omega

/-! ## An honest mail -/

/-- The first read of an honest mail has found the private header and has the
body before it; bytes behind the mail do not matter. -/
theorem maybeReadPrivateHeader_mail {destination : N.PublicKey}
    {header : EnclaveMailHeaderImpl} {sender : N.PrivateKey} {ephemeral : N.Ephemeral}
    {minSize : Int} {privateHeader : Option Bytes} {body behind : Bytes}
    {mail : MailEncryptingStream N} {privateKey : N.PrivateKey} {senderKey : N.PublicKey}
    {stream : MailDecryptingStream N}
    (layout : MailLayout destination header sender ephemeral minSize
      (plainBytes privateHeader body) mail)
    (nonnegative : 0 ≤ minSize) (headerFits : (privateHeader.getD []).length < 2 ^ 31)
    (prologueFits : prologueSize header < 65536)
    (agrees : N.readMessage privateKey layout.prologue
        (N.writeMessage destination sender ephemeral layout.prologue [0]).1 =
      .ok (senderKey, (N.writeMessage destination sender ephemeral layout.prologue [0]).2))
    (opens : Opens N (N.writeMessage destination sender ephemeral layout.prologue [0]).2 0
      (layout.packets ++ [layout.last]))
    (fresh : Fresh stream (mail.out ++ behind) privateKey) :
    ∃ after, maybeReadPrivateHeader stream = (.ok (), after) ∧
      after.privateHeaderRead = true ∧ after.privateHeader = emptyToNull privateHeader ∧
      after.prologue =
        some ⟨.senderKeyTransmittedV2, header.normalise, layout.prologue⟩ ∧
      after.cipherState.isSome = true ∧ after.senderPublicKey = some senderKey ∧
      Yields after body .terminator := by
  generalize helloEq : N.writeMessage destination sender ephemeral layout.prologue [0] = hello
    at agrees opens
  have size := computePrologue_length layout.computed
  have messageLength := N.writeMessage_length destination sender ephemeral layout.prologue [0]
  have terminator := layout.terminator nonnegative
  have input := layout.out
  rw [helloEq] at messageLength input
  rw [terminator] at opens input
  generalize framesEq : framesFrom N hello.2 0 (layout.packets ++ [Packet.terminator]) ++ behind =
    frames
  have whole : mail.out ++ behind =
      writeShort layout.prologue.length ++ layout.prologue ++ (hello.1 ++ frames) := by
    rw [input, ← framesEq]
    simp only [List.append_assoc]
  rw [whole] at fresh
  have split := splitPrologue_write layout.prologue (hello.1 ++ frames) (by omega)
  have parsed := parsePrologue_computePrologue layout.computed prologueFits
  have first := maybeReadPrivateHeader_fresh fresh split parsed
  generalize prologueEq : (⟨.senderKeyTransmittedV2, header.normalise, layout.prologue⟩ :
    Prologue) = prologue at first
  have protocol : prologue.protocol = .senderKeyTransmittedV2 := by rw [← prologueEq]
  have raw : prologue.raw = layout.prologue := by rw [← prologueEq]
  have sameLength : hello.1.length = prologue.protocol.handshakeLength := by
    rw [protocol, messageLength]
    rfl
  rw [← raw] at agrees
  have received := receivePrivateHeader_fresh frames fresh sameLength agrees
  have yields : Yields (stream.inSession prologue senderKey hello.2 frames)
      (plainBytes privateHeader body) .terminator := by
    have counter := layout.counter
    have remaining : (stream.inSession prologue senderKey hello.2 frames).input =
        framesFrom N hello.2 0 (layout.packets ++ [Packet.terminator]) ++ behind := framesEq.symm
    rw [← layout.user]
    exact yields_framesFrom layout.packets rfl (fresh.index.trans fresh.length.symm) (by omega)
      layout.nonempty (fun packet member => layout.bounded packet (by simp [member])) opens
      remaining
  obtain ⟨middle, ran, kept, rest⟩ := receivePrivateHeader_plainBytes headerFits yields
  obtain ⟨sameSender, isSome⟩ := kept.session _ rfl
  refine ⟨middle.withPrivateHeader (emptyToNull privateHeader) middle.privateHeaderRead, ?_,
    kept.privateHeaderRead, rfl, kept.prologue _ rfl, isSome, sameSender,
    rest.withPrivateHeader _ _⟩
  rw [first, if_neg (by rw [protocol]; decide)]
  exact handle_ok (received.trans ran)

end MailDecryptingStream

/-! ## Sender and receiver together -/

/-- Decryption undoes encryption under the same key and packet nonce. -/
def Decrypts (N : Noise) : Prop :=
  ∀ key nonce plaintext, N.decrypt key nonce (N.encrypt key nonce plaintext) = some plaintext

/-- The handshake gives the holder of `privateKey` the sender's cipher state. -/
def HandshakeAgrees (N : Noise) (destination : N.PublicKey) (sender : N.PrivateKey)
    (ephemeral : N.Ephemeral) (privateKey : N.PrivateKey) : Prop :=
  ∀ prologue, N.readMessage privateKey prologue
      (N.writeMessage destination sender ephemeral prologue [0]).1 =
    .ok (N.publicKey sender, (N.writeMessage destination sender ephemeral prologue [0]).2)

open MailDecryptingStream in
/-- What every sequence of reads sees of a mail that has been written. -/
theorem runReads_mail {N : Noise} {destination : N.PublicKey} {header : EnclaveMailHeaderImpl}
    {privateHeader : Option Bytes} {sender : N.PrivateKey} {minSize : Int}
    {ephemeral : N.Ephemeral} {capacity : Nat} {requests : List WriteRequest}
    {mail : MailEncryptingStream N} {privateKey : N.PrivateKey} (decrypts : Decrypts N)
    (agrees : HandshakeAgrees N destination sender ephemeral privateKey)
    (nonnegative : 0 ≤ minSize) (headerFits : (privateHeader.getD []).length < 2 ^ 31)
    (prologueFits : prologueSize header < 65536)
    (run : encrypt destination header privateHeader sender minSize ephemeral capacity requests =
      .ok mail) (reads : List ReadRequest) :
    let final := runReads reads (new mail.out (some privateKey))
    final.1 = readsOf (requests.flatMap WriteRequest.written) reads ∧
      (MailDecryptingStream.header final.2).1 = .ok header.normalise ∧
      (reads ≠ [] → final.2.privateHeader = emptyToNull privateHeader) := by
  obtain ⟨layout⟩ := encrypt_layout run
  have fresh := fresh_new mail.out privateKey
  rw [← List.append_nil mail.out] at fresh
  obtain ⟨after, first, headerRead, privateHeaderEq, prologue, _, _, yields⟩ :=
    maybeReadPrivateHeader_mail layout nonnegative headerFits prologueFits
      (agrees layout.prologue) (fun _ _ _ => decrypts _ _ _) fresh
  rw [List.append_nil] at first
  cases reads with
  | nil =>
      refine ⟨rfl, ?_, fun nonempty => absurd rfl nonempty⟩
      have split := splitPrologue_write layout.prologue
        ((N.writeMessage destination sender ephemeral layout.prologue [0]).1 ++
          framesFrom N (N.writeMessage destination sender ephemeral layout.prologue [0]).2 0
            (layout.packets ++ [layout.last]))
        (by rw [computePrologue_length layout.computed]; exact prologueFits)
      rw [← List.append_assoc, ← layout.out] at split
      exact header_fresh (fresh_new mail.out privateKey) split
        (parsePrologue_computePrologue layout.computed prologueFits)
  | cons request rest =>
      obtain ⟨results, kept⟩ := runReads_of_yields (request :: rest) yields headerRead
      have same : runReads (request :: rest) (new mail.out (some privateKey)) =
          runReads (request :: rest) after := by
        rw [runReads_cons, runReads_cons, read_after_header request first headerRead]
      simp only [same]
      refine ⟨results, ?_, fun _ => kept.privateHeader.trans privateHeaderEq⟩
      rw [header_known (kept.prologue _ prologue)]

open MailDecryptingStream in
/-- Whatever the private header, the body, its split over `write` calls and
`minSize`, a mail within the limits of its size fields is written, and every
sequence of reads sees its body followed by the end of the stream. -/
theorem runReads_encrypt {N : Noise} {destination : N.PublicKey} {sender : N.PrivateKey}
    {ephemeral : N.Ephemeral} {privateKey : N.PrivateKey} (header : EnclaveMailHeaderImpl)
    (privateHeader : Option Bytes) (minSize capacity : Nat) (requests : List WriteRequest)
    (decrypts : Decrypts N)
    (agrees : HandshakeAgrees N destination sender ephemeral privateKey)
    (valid : ∀ request ∈ requests, request.valid = true)
    (prologueFits : prologueSize header < 65536) (minSizeRange : minSize < 2 ^ 31)
    (payloadFits : totalPayload minSize
      (plainBytes privateHeader (requests.flatMap WriteRequest.written)).length < 2 ^ 31)
    (room : mailSize header minSize
      (plainBytes privateHeader (requests.flatMap WriteRequest.written)).length ≤ capacity) :
    ∃ mail, encrypt destination header privateHeader sender minSize ephemeral capacity requests =
        .ok mail ∧
      ∀ reads : List ReadRequest,
        let final := runReads reads (new mail.out (some privateKey))
        final.1 = readsOf (requests.flatMap WriteRequest.written) reads ∧
          (MailDecryptingStream.header final.2).1 = .ok header.normalise ∧
          (reads ≠ [] → final.2.privateHeader = emptyToNull privateHeader) := by
  have length := plainBytes_length privateHeader (requests.flatMap WriteRequest.written)
  have topicFits : (encodeUtf header.topic).length ≤ 65535 := by
    unfold prologueSize at prologueFits
    omega
  have headerFits : (privateHeader.getD []).length < 2 ^ 31 := by
    unfold totalPayload flushedPayload at payloadFits
    omega
  obtain ⟨mail, run⟩ := encrypt_progress destination sender ephemeral minSizeRange valid topicFits
    length payloadFits room
  exact ⟨mail, run, runReads_mail decrypts agrees (Int.natCast_nonneg _) headerFits prologueFits
    run⟩

theorem openNoise_decrypts : Decrypts openNoise := by
  intro key nonce plaintext
  simp [openNoise]

theorem openNoise_agrees (destination : UInt8) (sender : UInt8 × Option Bytes)
    (privateKey : UInt8) :
    HandshakeAgrees openNoise destination sender () (privateKey, none) :=
  fun _ => rfl

open MailDecryptingStream in
theorem runReads_encrypt_smallMail :
    ∃ mail : MailEncryptingStream openNoise,
      encrypt (N := openNoise) (1 : UInt8) ⟨5, [116], some [], some [3]⟩ (some [9, 9])
          ((2, none) : UInt8 × Option Bytes) (7 : Nat) () 1000
          [.array [0, 1, 2, 3] 1 3, .byte 4] = .ok mail ∧
        (runReads [.one, .many 10 1 8, .one]
            (new (N := openNoise) mail.out (some ((1, none) : UInt8 × Option Bytes)))).1 =
          [.byte 1, .bytes [2, 3, 4], .endOfStream] := by
  obtain ⟨mail, run, reads⟩ := runReads_encrypt ⟨5, [116], some [], some [3]⟩ (some [9, 9]) 7 1000
    [.array [0, 1, 2, 3] 1 3, .byte 4] openNoise_decrypts (openNoise_agrees 1 (2, none) 1)
    (by decide) (by decide) (by decide) (by decide) (by decide)
  exact ⟨mail, run, (reads [.one, .many 10 1 8, .one]).1⟩

end Conclave.Mail
