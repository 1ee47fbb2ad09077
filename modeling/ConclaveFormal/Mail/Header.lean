import ConclaveFormal.Mail.Protocol

/-!
# The mail header and the prologue

`encodeTo` writes the authenticated header fields, `computePrologue` puts the
protocol identifier in front of them and `parsePrologue` is the reader's side.
Neither `envelope` nor `keyDerivation` is checked against the sixteen bits of
its length field, so the round trip is stated for the fields that fit.
-/

set_option autoImplicit false

namespace Conclave.Mail

open Conclave.Lib

structure EnclaveMailHeaderImpl where
  sequenceNumber : BitVec 64
  topic : JString
  envelope : Option Bytes
  keyDerivation : Option Bytes
  deriving DecidableEq, Repr

structure Prologue where
  protocol : MailProtocol
  header : EnclaveMailHeaderImpl
  raw : Bytes
  deriving DecidableEq, Repr

/-- An empty field cannot be told from an absent one on the wire. -/
def emptyToNull : Option Bytes → Option Bytes
  | some [] => none
  | field => field

namespace EnclaveMailHeaderImpl

def normalise (header : EnclaveMailHeaderImpl) : EnclaveMailHeaderImpl :=
  { header with
    envelope := emptyToNull header.envelope
    keyDerivation := emptyToNull header.keyDerivation }

/-! ## Writing -/

def writeLengthPrefixBytes : Option Bytes → Bytes
  | some bytes => writeShort bytes.length ++ bytes
  | none => writeShort 0

def encodeTo (header : EnclaveMailHeaderImpl) : Except DataError Bytes :=
  match writeUTF header.topic with
  | .error e => .error e
  | .ok topic =>
      .ok (bigEndian 8 header.sequenceNumber.toNat ++ topic ++
        writeLengthPrefixBytes header.envelope ++ writeLengthPrefixBytes header.keyDerivation)

/-- The estimate the post office sizes its buffer with: it counts the topic's
characters, not its encoded bytes. -/
def encodedSize (header : EnclaveMailHeaderImpl) : Nat :=
  8 + 2 + header.topic.length + fieldSize header.envelope + fieldSize header.keyDerivation
where
  fieldSize : Option Bytes → Nat
    | some bytes => 2 + bytes.length
    | none => 2

end EnclaveMailHeaderImpl

def computePrologue (protocol : MailProtocol) (header : EnclaveMailHeaderImpl) :
    Except DataError Bytes :=
  match header.encodeTo with
  | .error e => .error e
  | .ok encoded => .ok (UInt8.ofNat protocol.ordinal :: encoded)

/-- The number of bytes of the prologue. -/
def prologueSize (header : EnclaveMailHeaderImpl) : Nat :=
  15 + (encodeUtf header.topic).length + (header.envelope.getD []).length +
    (header.keyDerivation.getD []).length

theorem writeLengthPrefixBytes_length (field : Option Bytes) :
    (EnclaveMailHeaderImpl.writeLengthPrefixBytes field).length = 2 + (field.getD []).length := by
  cases field <;> simp [EnclaveMailHeaderImpl.writeLengthPrefixBytes, writeShort]

theorem computePrologue_length {protocol : MailProtocol} {header : EnclaveMailHeaderImpl}
    {prologue : Bytes} (computed : computePrologue protocol header = .ok prologue) :
    prologue.length = prologueSize header := by
  unfold computePrologue EnclaveMailHeaderImpl.encodeTo at computed
  cases topic : writeUTF header.topic with
  | error e => simp [topic] at computed
  | ok bytes =>
      simp only [topic, Except.ok.injEq] at computed
      subst computed
      have topicLength := writeUTF_length topic
      simp only [List.length_cons, List.length_append, bigEndian_length, topicLength,
        writeLengthPrefixBytes_length, prologueSize]
      omega

/-- The topic is the only field whose size is checked. -/
theorem computePrologue_ok_iff (protocol : MailProtocol) (header : EnclaveMailHeaderImpl) :
    (∃ prologue, computePrologue protocol header = .ok prologue) ↔
      (encodeUtf header.topic).length ≤ 65535 := by
  unfold computePrologue EnclaveMailHeaderImpl.encodeTo writeUTF
  simp only
  by_cases fits : (encodeUtf header.topic).length > 65535
  · simp only [fits, if_true]
    constructor
    · rintro ⟨prologue, computed⟩
      cases computed
    · intro small
      omega
  · simp only [fits, if_false]
    exact ⟨fun _ => by omega, fun _ => ⟨_, rfl⟩⟩

/-! ## Reading -/

def readLengthPrefixBytes : DataInput (Option Bytes) := fun input =>
  match readUnsigned 2 input with
  | .error e => .error e
  | .ok (size, rest) =>
      if size = 0 then .ok (none, rest)
      else (readFully size rest).map fun (bytes, rest) => (some bytes, rest)

/-- The header fields after the protocol identifier.  Bytes behind them are
ignored, which leaves room for extensions. -/
def readHeader : DataInput EnclaveMailHeaderImpl := fun input =>
  match readLong input with
  | .error e => .error e
  | .ok (sequenceNumber, input) =>
      match readUTF input with
      | .error e => .error e
      | .ok (topic, input) =>
          match readLengthPrefixBytes input with
          | .error e => .error e
          | .ok (envelope, input) =>
              match readLengthPrefixBytes input with
              | .error e => .error e
              | .ok (keyDerivation, input) =>
                  .ok (⟨sequenceNumber, topic, envelope, keyDerivation⟩, input)

def prologueException : DataError → StreamException
  | .eof => .mailDecryption .truncatedPrologue
  | .utfDataFormat => .utfDataFormat

def parsePrologue (raw : Bytes) : Except StreamException Prologue :=
  match readUnsigned 1 raw with
  | .error e => .error (prologueException e)
  | .ok (protocolId, rest) =>
      match MailProtocol.values[protocolId]? with
      | none => .error (.mailDecryption (.invalidProtocolId protocolId))
      | some protocol =>
          match readHeader rest with
          | .error e => .error (prologueException e)
          | .ok (header, _) => .ok ⟨protocol, header, raw⟩

/-! ## Round trip -/

theorem readLengthPrefixBytes_write (field : Option Bytes) (rest : Bytes)
    (fits : (field.getD []).length < 65536) :
    readLengthPrefixBytes (EnclaveMailHeaderImpl.writeLengthPrefixBytes field ++ rest) =
      .ok (emptyToNull field, rest) := by
  cases field with
  | none =>
      have size := readUnsigned_bigEndian 2 0 rest (by norm_num)
      simp [EnclaveMailHeaderImpl.writeLengthPrefixBytes, writeShort, readLengthPrefixBytes, size,
        emptyToNull]
  | some bytes =>
      have size := readUnsigned_bigEndian 2 bytes.length (bytes ++ rest) (by simpa using fits)
      simp only [EnclaveMailHeaderImpl.writeLengthPrefixBytes, writeShort, List.append_assoc,
        readLengthPrefixBytes, size, readFully_append]
      cases bytes with
      | nil => simp [emptyToNull]
      | cons byte bytes => simp [emptyToNull, Except.map]

theorem readHeader_encodeTo (header : EnclaveMailHeaderImpl) (encoded rest : Bytes)
    (envelopeFits : (header.envelope.getD []).length < 65536)
    (keyDerivationFits : (header.keyDerivation.getD []).length < 65536)
    (written : header.encodeTo = .ok encoded) :
    readHeader (encoded ++ rest) = .ok (header.normalise, rest) := by
  unfold EnclaveMailHeaderImpl.encodeTo at written
  cases topic : writeUTF header.topic with
  | error e => simp [topic] at written
  | ok bytes =>
      simp only [topic, Except.ok.injEq] at written
      subst written
      simp only [List.append_assoc]
      simp only [readHeader, readLong_bigEndian, readUTF_writeUTF header.topic bytes _ topic,
        readLengthPrefixBytes_write header.envelope _ envelopeFits,
        readLengthPrefixBytes_write header.keyDerivation _ keyDerivationFits]
      rfl

theorem readUnsigned_one (byte : UInt8) (rest : Bytes) :
    readUnsigned 1 (byte :: rest) = .ok (byte.toNat, rest) := by
  simp [readUnsigned, readFully, Except.map, ofBigEndian]

/-- However short a prologue is cut, its first byte is the protocol. -/
theorem parsePrologue_take_protocol {protocol : MailProtocol} {header : EnclaveMailHeaderImpl}
    {bytes : Bytes} (computed : computePrologue protocol header = .ok bytes) {size : Nat}
    {prologue : Prologue} (parsed : parsePrologue (bytes.take size) = .ok prologue) :
    prologue.protocol = protocol := by
  unfold computePrologue at computed
  cases written : header.encodeTo with
  | error e => simp [written] at computed
  | ok encoded =>
      simp only [written, Except.ok.injEq] at computed
      subst computed
      cases size with
      | zero => simp [parsePrologue, readUnsigned, readFully, Except.map] at parsed
      | succ size =>
          have identifier : (UInt8.ofNat protocol.ordinal).toNat = protocol.ordinal := by
            cases protocol <;> rfl
          simp only [List.take_succ_cons, parsePrologue, readUnsigned_one, identifier,
            MailProtocol.values_ordinal] at parsed
          split at parsed
          · cases parsed
          · cases parsed
            rfl

/-- A prologue that fits its size field has fields that fit theirs. -/
theorem parsePrologue_computePrologue {protocol : MailProtocol}
    {header : EnclaveMailHeaderImpl} {prologue : Bytes}
    (computed : computePrologue protocol header = .ok prologue)
    (fits : prologueSize header < 65536) :
    parsePrologue prologue = .ok ⟨protocol, header.normalise, prologue⟩ := by
  unfold computePrologue at computed
  cases written : header.encodeTo with
  | error e => simp [written] at computed
  | ok encoded =>
      simp only [written, Except.ok.injEq] at computed
      subst computed
      unfold prologueSize at fits
      have fields := readHeader_encodeTo header encoded []
        (by omega) (by omega) written
      rw [List.append_nil] at fields
      have identifier : (UInt8.ofNat protocol.ordinal).toNat = protocol.ordinal := by
        cases protocol <;> rfl
      simp only [parsePrologue, readUnsigned_one, identifier, MailProtocol.values_ordinal, fields]

end Conclave.Mail
