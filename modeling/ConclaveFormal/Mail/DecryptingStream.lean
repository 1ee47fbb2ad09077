import ConclaveFormal.Lib.Attempt
import ConclaveFormal.Mail.Header

/-!
# The decrypting stream

`MailDecryptingStream` reads its prologue, its handshake and its packets lazily:
the first `read` parses the prologue and carves the private header out of the
packet stream, and the first packet triggers the handshake.  Every method is an
`Attempt`, since what a failed call has consumed stays consumed: the position in
the input, the packet nonce, the two cursor fields and `privateHeaderRead`.

The underlying `InputStream` holds the bytes of `input`.  Loops carry fuel that
the bytes left in the input bound from above.
-/

set_option autoImplicit false

namespace Conclave.Mail

open Conclave.Lib

structure MailDecryptingStream (N : Noise) where
  input : Bytes
  privateKey : Option N.PrivateKey
  privateKeyProvided : Bool
  cipherState : Option (CipherState N)
  handshakeFailure : Option DecryptionFailure
  senderPublicKey : Option N.PublicKey
  privateHeader : Option Bytes
  privateHeaderRead : Bool
  prologue : Option Prologue
  currentDecryptedBuffer : Bytes
  currentUserBytesIndex : Int
  currentUserBytesLength : Int

inductive ReadRequest where
  | one
  | many (size : Nat) (off len : Int)
  deriving DecidableEq, Repr

inductive ReadResult where
  | byte (value : UInt8)
  | bytes (read : Bytes)
  | endOfStream
  | exception (e : StreamException)
  deriving DecidableEq, Repr

abbrev Reading (N : Noise) (α : Type) : Type :=
  Attempt (MailDecryptingStream N) StreamException α

structure DecryptedEnclaveMail (N : Noise) where
  sequenceNumber : BitVec 64
  topic : JString
  authenticatedSender : N.PublicKey
  envelope : Option Bytes
  privateHeader : Option Bytes
  bodyAsBytes : Bytes
  kdsPrivateKey : Option N.PrivateKey

namespace MailDecryptingStream

open Attempt

variable {N : Noise}

def new (input : Bytes) (privateKey : Option N.PrivateKey) : MailDecryptingStream N where
  input := input
  privateKey := privateKey
  privateKeyProvided := privateKey.isSome
  cipherState := none
  handshakeFailure := none
  senderPublicKey := none
  privateHeader := none
  privateHeaderRead := false
  prologue := none
  currentDecryptedBuffer := []
  currentUserBytesIndex := 0
  currentUserBytesLength := 0

/-! ## The underlying stream -/

def error {α : Type} (failure : DecryptionFailure) : Reading N α :=
  throw (.mailDecryption failure)

def readUnsignedByte : Reading N Nat := fun stream =>
  match stream.input with
  | [] => error .truncatedStream stream
  | byte :: rest => (.ok byte.toNat, { stream with input := rest })

def readUnsignedShort : Reading N Nat := do
  let b1 ← readUnsignedByte
  let b2 ← readUnsignedByte
  pure (b1 * 256 + b2)

/-- `in.readExactlyNBytes(n)`: reaching the end uses up what was left. -/
def readInput (n : Nat) : Reading N Bytes := fun stream =>
  if n ≤ stream.input.length then
    (.ok (stream.input.take n), { stream with input := stream.input.drop n })
  else (.error .eof, { stream with input := [] })

/-! ## Prologue and handshake -/

def getPrologue : Reading N Prologue := do
  let stream ← get
  match stream.prologue with
  | some prologue => pure prologue
  | none =>
      let length ← readUnsignedShort
      let prologueBytes ← handle (readInput length) fun _ => error .prologueEnd
      match parsePrologue prologueBytes with
      | .error e => throw e
      | .ok prologue =>
          modify fun stream => { stream with prologue := some prologue }
          pure prologue

def header : Reading N EnclaveMailHeaderImpl := do
  let prologue ← getPrologue
  pure prologue.header

def setupHandshake (prologue : Prologue) : Reading N (N.PublicKey × N.CipherKey) := do
  let stream ← get
  match stream.privateKey with
  | none => throw (.illegalState "Private key has not been provided to decrypt the stream.")
  | some privateKey =>
      let handshakeBuf ← handle (readInput prologue.protocol.handshakeLength) fun _ =>
        error .handshakeEnd
      match N.readMessage privateKey prologue.raw handshakeBuf with
      | .error .badTag => error .handshakeMac
      | .error .other => throw .noise
      | .ok session => pure session

/-- The body of the `try` in `maybeHandshake`. -/
def establishSession : Reading N (CipherState N) := do
  let prologue ← getPrologue
  let (sender, key) ← setupHandshake prologue
  modify fun stream =>
    { stream with senderPublicKey := some sender, cipherState := some ⟨key, 0⟩ }
  pure ⟨key, 0⟩

def maybeHandshake : Reading N (CipherState N) := fun stream =>
  match stream.cipherState with
  | some cipherState => (.ok cipherState, stream)
  | none =>
      match stream.handshakeFailure with
      | some failure => error failure stream
      | none =>
          match establishSession stream with
          | (.ok cipherState, stream) => (.ok cipherState, { stream with privateKey := none })
          | (.error e, stream) =>
              (.error (.mailDecryption e.asDecryptionFailure),
                { stream with
                  handshakeFailure := some e.asDecryptionFailure
                  privateKey := none })

/-! ## Packets -/

/-- What follows the length field: `plaintext` has just been decrypted into the
buffer, over the start of the packet before it. -/
def acceptPlaintext (plaintext : Bytes) : Reading N Unit := do
  modify fun stream => { stream with
    currentDecryptedBuffer :=
      plaintext ++ stream.currentDecryptedBuffer.drop plaintext.length }
  if plaintext.length < 2 then error (.plaintextLength plaintext.length)
  else
    let payloadLength := plaintext.length - 2
    let userBytesLength := readShort plaintext payloadLength
    modify fun stream => { stream with currentUserBytesLength := userBytesLength }
    if userBytesLength > payloadLength then error .userBytesLength
    else
      modify fun stream => { stream with
        currentUserBytesIndex := if payloadLength = 0 then -1 else 0 }

def readNextPacket : Reading N Unit := do
  let cipherState ← maybeHandshake
  let packetLength ← readUnsignedShort
  if packetLength < macLength then error (.packetLength packetLength)
  else
    let encrypted ← handle (readInput packetLength) fun _ => error .missingTerminator
    let (decrypted, cipherState) := cipherState.decryptWithAd encrypted
    modify fun stream => { stream with cipherState := some cipherState }
    match decrypted with
    | none => error .decrypt
    | some plaintext => acceptPlaintext plaintext

/-- Every packet uses up at least its length field. -/
def ensureLoop : Nat → Reading N Bool
  | 0 => error .truncatedStream
  | fuel + 1 => fun stream =>
      if stream.currentUserBytesIndex = stream.currentUserBytesLength then
        (do readNextPacket; ensureLoop fuel) stream
      else (.ok (stream.currentUserBytesIndex != -1), stream)

def ensureAvailablePacket : Reading N Bool := fun stream =>
  ensureLoop (stream.input.length + 1) stream

/-! ## Reading user bytes -/

/-- `currentDecryptedBuffer[currentUserBytesIndex++]` on an array of
`maxPacketPlaintextLength` bytes that starts out zero. -/
def takeByte : Reading N UInt8 := fun stream =>
  let index := stream.currentUserBytesIndex
  let advanced := { stream with currentUserBytesIndex := wrap32 (index + 1) }
  if 0 ≤ index ∧ index < maxPacketPlaintextLength then
    (.ok (stream.currentDecryptedBuffer.getD index.toNat 0), advanced)
  else (.error .indexOutOfBounds, advanced)

/-- `read()` once the private header is out of the way; `none` is `-1`. -/
def readUserByte : Reading N (Option UInt8) := do
  let available ← ensureAvailablePacket
  if available then do
    let byte ← takeByte
    pure (some byte)
  else pure none

/-- `System.arraycopy` out of the packet buffer. -/
def copyOut (length : Int) : Reading N Bytes := fun stream =>
  let index := stream.currentUserBytesIndex
  if index < 0 ∨ length < 0 ∨ maxPacketPlaintextLength < index + length then
    (.error .indexOutOfBounds, stream)
  else
    (.ok ((List.range length.toNat).map fun k =>
        stream.currentDecryptedBuffer.getD (index.toNat + k) 0),
      { stream with currentUserBytesIndex := index + length })

/-- The copying loop of `read(b, off, len)` with `wanted` bytes to go.  Every
turn copies at least one byte. -/
def copyLoop : Nat → Nat → Reading N Bytes
  | 0, _ => throw .indexOutOfBounds
  | fuel + 1, wanted => do
      let available ← ensureAvailablePacket
      if available then do
        let stream ← get
        let length :=
          min (stream.currentUserBytesLength - stream.currentUserBytesIndex) (wanted : Int)
        let copied ← copyOut length
        if copied.length = wanted then pure copied
        else do
          let rest ← copyLoop fuel (wanted - copied.length)
          pure (copied ++ rest)
      else pure []

def readUserBytes (len : Nat) : Reading N Bytes := copyLoop len len

/-! ## The private header -/

/-- A byte past the end of the stream counts as `0xFF`. -/
def readHeaderByte : Reading N Nat := do
  let byte ← readUserByte
  pure ((byte.map UInt8.toNat).getD 255)

def readInt : Reading N Int := do
  let b1 ← readHeaderByte
  let b2 ← readHeaderByte
  let b3 ← readHeaderByte
  let b4 ← readHeaderByte
  pure (wrap32 ((b1 * 256 ^ 3 + b2 * 256 ^ 2 + b3 * 256 + b4 : Nat) : Int))

def readExactlyLoop : Nat → Nat → Reading N Bytes
  | _, 0 => pure []
  | 0, _ + 1 => throw .eof
  | fuel + 1, wanted + 1 => do
      let bytes ← readUserBytes (wanted + 1)
      if bytes = [] then throw .eof
      else do
        let rest ← readExactlyLoop fuel (wanted + 1 - bytes.length)
        pure (bytes ++ rest)

/-- `readExactlyNBytes(n)` on the stream itself. -/
def readExactlyNBytes (n : Int) : Reading N Bytes :=
  if n < 0 then throw .negativeArraySize else readExactlyLoop n.toNat n.toNat

def receivePrivateHeader : Reading N Unit := do
  let headerSize ← readInt
  if headerSize = 0 then
    modify fun stream => { stream with privateHeader := none }
  else do
    let bytes ← readExactlyNBytes headerSize
    modify fun stream => { stream with privateHeader := some bytes }

def readPrivateHeader : Reading N Unit := do
  modify fun stream => { stream with privateHeaderRead := true }
  -- A failure of the prologue leaves the flag set, one behind it clears it.
  let prologue ← getPrologue
  if prologue.protocol.ordinal < MailProtocol.senderKeyTransmittedV2.ordinal then
    modify fun stream => { stream with privateHeader := none }
  else
    handle receivePrivateHeader fun e => do
      modify fun stream => { stream with privateHeaderRead := false }
      match e with
      | .eof => error .privateHeaderEnd
      | e => throw e

def maybeReadPrivateHeader : Reading N Unit := fun stream =>
  if stream.privateHeaderRead then (.ok (), stream) else readPrivateHeader stream

/-! ## The methods of the stream -/

def outOfBounds (size : Nat) (off len : Int) : Bool :=
  len > wrap32 (size - off) || off < 0 || len < 0

def read (request : ReadRequest) : Reading N ReadResult := do
  maybeReadPrivateHeader
  match request with
  | .one => do
      let byte ← readUserByte
      pure (match byte with
        | some value => .byte value
        | none => .endOfStream)
  | .many size off len =>
      if outOfBounds size off len then throw .indexOutOfBounds
      else if len = 0 then pure (.bytes [])
      else do
        let bytes ← readUserBytes len.toNat
        pure (if bytes = [] then .endOfStream else .bytes bytes)

/-- One call after another, also after a call that threw. -/
def runReads : List ReadRequest → MailDecryptingStream N →
    List ReadResult × MailDecryptingStream N
  | [], stream => ([], stream)
  | request :: rest, stream =>
      match read request stream with
      | (.ok result, stream) => (result :: (runReads rest stream).1, (runReads rest stream).2)
      | (.error e, stream) =>
          (.exception e :: (runReads rest stream).1, (runReads rest stream).2)

def setPrivateKey (privateKey : N.PrivateKey) : Reading N Unit := do
  let stream ← get
  if stream.privateKeyProvided then throw (.illegalState "Private key has already been provided.")
  else do
    modify fun stream => { stream with privateKey := some privateKey, privateKeyProvided := true }
    if stream.prologue.isSome then do
      let _ ← maybeHandshake
      pure ()
    else pure ()

def getSenderPublicKey : Reading N N.PublicKey := do
  let _ ← maybeHandshake
  let stream ← get
  match stream.senderPublicKey with
  | some sender => pure sender
  | none => throw (.illegalState "lateinit property _senderPublicKey has not been initialized")

/-- `readBytes()`: blocks of 8192 bytes up to the end of the stream.  Every
block but the last result holds a byte of the buffer or of the input. -/
def readBytesLoop : Nat → Reading N Bytes
  | 0 => throw .eof
  | fuel + 1 => do
      let block ← read (.many 8192 0 8192)
      match block with
      | .bytes bytes => do
          let rest ← readBytesLoop fuel
          pure (bytes ++ rest)
      | _ => pure []

def readBytes : Reading N Bytes := fun stream =>
  readBytesLoop (stream.input.length + maxPacketPlaintextLength + 1) stream

def decryptMail (privateKey : N.PrivateKey) (isKdsKey : Bool) :
    Reading N (DecryptedEnclaveMail N) := do
  setPrivateKey privateKey
  let mailBody ← readBytes
  let header ← header
  let sender ← getSenderPublicKey
  let stream ← get
  pure {
    sequenceNumber := header.sequenceNumber
    topic := header.topic
    authenticatedSender := sender
    envelope := header.envelope
    privateHeader := stream.privateHeader
    bodyAsBytes := mailBody
    kdsPrivateKey := if isKdsKey then some privateKey else none }

end MailDecryptingStream

end Conclave.Mail
