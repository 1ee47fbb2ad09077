import ConclaveFormal.Mail.Header

/-!
# The encrypting stream

`MailEncryptingStream` buffers user bytes into packets of at most
`maxPacketPayloadLength` bytes.  Every packet carries its user bytes, padding
and the number of user bytes, is encrypted under the next nonce and is written
behind its length.  The private header is the first thing that goes through
`write`; `close` flushes the buffer, pads up to `minSize` and appends the
terminator packet.

The underlying `OutputStream` accepts `capacity` bytes and throws on the write
that would exceed it, which is how a `ByteArrayOutputStream` behaves at the
largest array the JVM can allocate.  `sent` records the packets in the order of
their nonces; the code has no such field and no operation reads it.
-/

set_option autoImplicit false

namespace Conclave.Mail

open Conclave.Lib

/-! ## Packets -/

structure Packet where
  userBytes : Bytes
  padding : Nat
  deriving DecidableEq, Repr

namespace Packet

def payloadLength (packet : Packet) : Nat := packet.userBytes.length + packet.padding

def plaintext (packet : Packet) : Bytes :=
  packet.userBytes ++ List.replicate packet.padding 0 ++ writeShort packet.userBytes.length

def terminator : Packet := ⟨[], 0⟩

theorem plaintext_length (packet : Packet) :
    packet.plaintext.length = packet.payloadLength + 2 := by
  simp [plaintext, payloadLength, writeShort, Nat.add_assoc]

end Packet

/-- A packet on the wire: the ciphertext behind its length. -/
def frame (N : Noise) (key : N.CipherKey) (nonce : Nat) (packet : Packet) : Bytes :=
  let encrypted := N.encrypt key nonce packet.plaintext
  writeShort encrypted.length ++ encrypted

def framesFrom (N : Noise) (key : N.CipherKey) : Nat → List Packet → Bytes
  | _, [] => []
  | nonce, packet :: rest => frame N key nonce packet ++ framesFrom N key (nonce + 1) rest

theorem frame_length (N : Noise) (key : N.CipherKey) (nonce : Nat) (packet : Packet) :
    (frame N key nonce packet).length = packet.payloadLength + 20 := by
  simp [frame, writeShort, N.encrypt_length, packet.plaintext_length, macLength]
  omega

theorem framesFrom_append (N : Noise) (key : N.CipherKey) (nonce : Nat)
    (left right : List Packet) :
    framesFrom N key nonce (left ++ right) =
      framesFrom N key nonce left ++ framesFrom N key (nonce + left.length) right := by
  induction left generalizing nonce with
  | nil => simp [framesFrom]
  | cons packet rest ih =>
      simp only [List.cons_append, framesFrom, ih, List.append_assoc, List.length_cons]
      rw [Nat.add_assoc, Nat.add_comm 1]

theorem framesFrom_length (N : Noise) (key : N.CipherKey) (nonce : Nat)
    (packets : List Packet) :
    (framesFrom N key nonce packets).length =
      (packets.map Packet.payloadLength).sum + 20 * packets.length := by
  induction packets generalizing nonce with
  | nil => rfl
  | cons packet rest ih =>
      simp only [framesFrom, List.length_append, frame_length, ih, List.map_cons, List.sum_cons,
        List.length_cons]
      omega

/-! ## The stream -/

inductive WriteException where
  | utfDataFormat
  | indexOutOfBounds
  | illegalState
  | illegalArgument
  | outputStream
  deriving DecidableEq, Repr

structure MailEncryptingStream (N : Noise) where
  cipherState : CipherState N
  buffer : Bytes
  payloadBytesWritten : Int
  minSize : Int
  out : Bytes
  capacity : Nat
  sent : List Packet

inductive WriteRequest where
  | byte (value : Int)
  | array (bytes : Bytes) (off len : Int)
  deriving DecidableEq, Repr

namespace MailEncryptingStream

variable {N : Noise}

def coerceIn (value low high : Int) : Int := max low (min value high)

/-- The packet `writePacket` makes of the buffer.  The padding is counted from
the bytes already written and leaves the buffered ones out. -/
def nextPacket (stream : MailEncryptingStream N) : Packet :=
  let remainingPayloadLength := maxPacketPayloadLength - stream.buffer.length
  let paddingLength :=
    coerceIn (wrap32 (stream.minSize - stream.payloadBytesWritten)) 0 remainingPayloadLength
  ⟨stream.buffer, paddingLength.toNat⟩

def writePacket (stream : MailEncryptingStream N) :
    Except WriteException (MailEncryptingStream N) :=
  let packet := stream.nextPacket
  match stream.cipherState.encryptWithAd packet.plaintext with
  | none => .error .illegalState
  | some (encrypted, cipherState) =>
      if encrypted.length ≠ packet.plaintext.length + macLength then .error .illegalState
      else
        let written := writeShort encrypted.length ++ encrypted
        if stream.capacity < stream.out.length + written.length then .error .outputStream
        else
          .ok { stream with
            cipherState := cipherState
            out := stream.out ++ written
            payloadBytesWritten := wrap32 (stream.payloadBytesWritten + packet.payloadLength)
            buffer := []
            sent := stream.sent ++ [packet] }

def writePacketIfBufferFull (stream : MailEncryptingStream N) :
    Except WriteException (MailEncryptingStream N) :=
  if stream.buffer.length = maxPacketPayloadLength then stream.writePacket else .ok stream

def writeByte (stream : MailEncryptingStream N) (byte : UInt8) :
    Except WriteException (MailEncryptingStream N) :=
  { stream with buffer := stream.buffer ++ [byte] }.writePacketIfBufferFull

/-- The copying loop of `write(b, off, len)`.  Each turn copies at least one
byte while the buffer has room, so the length of the input is enough fuel. -/
def writeLoop : Nat → Bytes → MailEncryptingStream N →
    Except WriteException (MailEncryptingStream N)
  | _, [], stream => .ok stream
  | 0, _ :: _, _ => .error .illegalState
  | fuel + 1, byte :: rest, stream =>
      let bytes := byte :: rest
      let length := min bytes.length (maxPacketPayloadLength - stream.buffer.length)
      match { stream with
          buffer := stream.buffer ++ bytes.take length }.writePacketIfBufferFull with
      | .error e => .error e
      | .ok stream => writeLoop fuel (bytes.drop length) stream

def inBounds (size : Nat) (off len : Int) : Bool :=
  !(off < 0 || off > size || len < 0 || wrap32 (off + len) > size || wrap32 (off + len) < 0)

def write (stream : MailEncryptingStream N) :
    WriteRequest → Except WriteException (MailEncryptingStream N)
  | .byte value => stream.writeByte (UInt8.ofNat (value % 256).toNat)
  | .array bytes off len =>
      if inBounds bytes.length off len then
        let slice := (bytes.drop off.toNat).take len.toNat
        writeLoop slice.length slice stream
      else .error .indexOutOfBounds

def writeAll (stream : MailEncryptingStream N) :
    List WriteRequest → Except WriteException (MailEncryptingStream N)
  | [] => .ok stream
  | request :: rest =>
      match stream.write request with
      | .error e => .error e
      | .ok stream => stream.writeAll rest

/-- `writeInt` on the stream itself: four calls of `write(int)`. -/
def writeInt (stream : MailEncryptingStream N) (value : Nat) :
    Except WriteException (MailEncryptingStream N) :=
  (Mail.writeInt value).foldlM writeByte stream

def writePrivateHeader (stream : MailEncryptingStream N) (privateHeader : Option Bytes) :
    Except WriteException (MailEncryptingStream N) :=
  match privateHeader with
  | none => stream.writeInt 0
  | some bytes =>
      match stream.writeInt bytes.length with
      | .error e => .error e
      | .ok stream =>
          if bytes = [] then .ok stream else writeLoop bytes.length bytes stream

/-- The unencrypted start of the mail: the prologue behind its size, then the
handshake message with its one zero byte of payload. -/
def handshake (destination : N.PublicKey) (sender : N.PrivateKey) (ephemeral : N.Ephemeral)
    (header : EnclaveMailHeaderImpl) : Except DataError (Bytes × N.CipherKey) :=
  match computePrologue .senderKeyTransmittedV2 header with
  | .error e => .error e
  | .ok prologue =>
      let (message, key) := N.writeMessage destination sender ephemeral prologue [0]
      .ok (writeShort prologue.length ++ prologue ++ message, key)

def new (destination : N.PublicKey) (header : EnclaveMailHeaderImpl)
    (privateHeader : Option Bytes) (sender : N.PrivateKey) (minSize : Int)
    (ephemeral : N.Ephemeral) (capacity : Nat) :
    Except WriteException (MailEncryptingStream N) :=
  match handshake destination sender ephemeral header with
  | .error _ => .error .utfDataFormat
  | .ok (preamble, key) =>
      if capacity < preamble.length then .error .outputStream
      else
        writePrivateHeader ⟨⟨key, 0⟩, [], 0, minSize, preamble, capacity, []⟩ privateHeader

/-- `while (payloadBytesWritten < minSize) writePacket()`.  Every packet takes
part of the capacity, so a loop that outlasts it ends in the stream's
exception. -/
def padToMinSize : Nat → MailEncryptingStream N →
    Except WriteException (MailEncryptingStream N)
  | 0, _ => .error .outputStream
  | fuel + 1, stream =>
      if stream.payloadBytesWritten < stream.minSize then
        match stream.writePacket with
        | .error e => .error e
        | .ok stream => padToMinSize fuel stream
      else .ok stream

def flush (stream : MailEncryptingStream N) :
    Except WriteException (MailEncryptingStream N) :=
  if stream.buffer.length > 0 then stream.writePacket else .ok stream

def close (stream : MailEncryptingStream N) :
    Except WriteException (MailEncryptingStream N) :=
  match stream.flush with
  | .error e => .error e
  | .ok stream =>
      match padToMinSize (stream.capacity + 1) stream with
      | .error e => .error e
      | .ok stream => stream.writePacket

end MailEncryptingStream

/-- One mail from the constructor to `close`. -/
def encrypt {N : Noise} (destination : N.PublicKey) (header : EnclaveMailHeaderImpl)
    (privateHeader : Option Bytes) (sender : N.PrivateKey) (minSize : Int)
    (ephemeral : N.Ephemeral) (capacity : Nat) (requests : List WriteRequest) :
    Except WriteException (MailEncryptingStream N) :=
  match MailEncryptingStream.new destination header privateHeader sender minSize ephemeral
      capacity with
  | .error e => .error e
  | .ok stream =>
      match stream.writeAll requests with
      | .error e => .error e
      | .ok stream => stream.close

end Conclave.Mail
