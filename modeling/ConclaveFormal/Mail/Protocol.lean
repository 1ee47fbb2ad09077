import ConclaveFormal.Lib.DataStream

/-!
# Mail protocol constants and the Noise primitives

`Noise` collects the operations of the embedded Noise library that the mail
streams call: the one-message X handshake and the AES/GCM transport cipher.
Only the lengths they produce are part of the interface; that both sides derive
the same cipher state, or that nothing else is accepted, are separate
predicates stated where they are used.  `CipherState` adds the 64-bit packet
counter, which is advanced before the tag is checked.
-/

set_option autoImplicit false

namespace Conclave.Mail

open Conclave.Lib

/-! ## Packet sizes -/

def maxPacketLen : Nat := 65535

def macLength : Nat := 16

def maxPacketPlaintextLength : Nat := maxPacketLen - 16

/-- The user bytes of a packet plus its padding, without the two bytes that
hold the number of user bytes. -/
def maxPacketPayloadLength : Nat := maxPacketPlaintextLength - 2

theorem maxPacketPayloadLength_eq : maxPacketPayloadLength = 65517 := rfl

theorem maxPacketPayloadLength_pos : 0 < maxPacketPayloadLength := by
  rw [maxPacketPayloadLength_eq]
  omega

theorem maxPacketPlaintextLength_eq : maxPacketPlaintextLength = 65519 := rfl

theorem macLength_eq : macLength = 16 := rfl

def writeShort (value : Nat) : Bytes := bigEndian 2 value

def writeInt (value : Nat) : Bytes := bigEndian 4 value

/-- The two bytes at `offset`; bytes past the end of the list are the zeros of
a fresh array. -/
def readShort (buffer : Bytes) (offset : Nat) : Nat :=
  (buffer.getD offset 0).toNat * 256 + (buffer.getD (offset + 1) 0).toNat

inductive MailProtocol where
  | senderKeyTransmitted
  | senderKeyTransmittedV2
  deriving DecidableEq, Repr

namespace MailProtocol

def values : List MailProtocol := [senderKeyTransmitted, senderKeyTransmittedV2]

def ordinal : MailProtocol → Nat
  | senderKeyTransmitted => 0
  | senderKeyTransmittedV2 => 1

def handshakeLength : MailProtocol → Nat
  | senderKeyTransmitted => 96
  | senderKeyTransmittedV2 => 96 + 1

theorem values_ordinal (protocol : MailProtocol) :
    values[protocol.ordinal]? = some protocol := by
  cases protocol <;> rfl

end MailProtocol

/-! ## Noise -/

inductive HandshakeError where
  | badTag
  | other
  deriving DecidableEq, Repr

/-- The Noise operations behind `Noise_X_25519_AESGCM_SHA256`.  `writeMessage`
takes the destination key, the sender's key, the ephemeral randomness, the
prologue and the payload; `readMessage` returns the authenticated sender. -/
structure Noise where
  PrivateKey : Type
  PublicKey : Type
  Ephemeral : Type
  CipherKey : Type
  publicKey : PrivateKey → PublicKey
  writeMessage : PublicKey → PrivateKey → Ephemeral → Bytes → Bytes → Bytes × CipherKey
  readMessage : PrivateKey → Bytes → Bytes → Except HandshakeError (PublicKey × CipherKey)
  encrypt : CipherKey → Nat → Bytes → Bytes
  decrypt : CipherKey → Nat → Bytes → Option Bytes
  writeMessage_length : ∀ destination sender ephemeral prologue payload,
    (writeMessage destination sender ephemeral prologue payload).1.length = 96 + payload.length
  encrypt_length : ∀ key nonce plaintext,
    (encrypt key nonce plaintext).length = plaintext.length + macLength
  decrypt_length : ∀ key nonce ciphertext plaintext,
    decrypt key nonce ciphertext = some plaintext →
      ciphertext.length = plaintext.length + macLength

/-- An instance without secrecy, for evaluating the streams: the handshake
message names the sender, and a receiver may insist on one prologue. -/
def openNoise : Noise where
  PrivateKey := UInt8 × Option Bytes
  PublicKey := UInt8
  Ephemeral := Unit
  CipherKey := Unit
  publicKey := Prod.fst
  writeMessage _ sender _ _ payload := (sender.1 :: List.replicate 95 0 ++ payload, ())
  readMessage privateKey prologue message :=
    match message, privateKey.2 with
    | [], _ => .error .other
    | sender :: _, none => .ok (sender, ())
    | sender :: _, some expected =>
        if prologue = expected then .ok (sender, ()) else .error .badTag
  encrypt _ _ plaintext := plaintext ++ List.replicate macLength 0
  decrypt _ _ ciphertext :=
    if macLength ≤ ciphertext.length then
      some (ciphertext.take (ciphertext.length - macLength))
    else none
  writeMessage_length := by
    intro _ _ _ _ payload
    simp only [List.length_append, List.length_cons, List.length_replicate]
  encrypt_length := by
    intro _ _ plaintext
    simp
  decrypt_length := by
    intro _ _ ciphertext plaintext opened
    split at opened
    · cases opened
      rw [List.length_take]
      omega
    · cases opened

structure CipherState (N : Noise) where
  key : N.CipherKey
  nonce : Nat

/-- The counter value at which the cipher refuses to go on. -/
def lastNonce : Nat := 2 ^ 64 - 1

namespace CipherState

variable {N : Noise}

/-- `none` is the `IllegalStateException` of an exhausted counter. -/
def encryptWithAd (cipher : CipherState N) (plaintext : Bytes) :
    Option (Bytes × CipherState N) :=
  if cipher.nonce = lastNonce then none
  else some (N.encrypt cipher.key cipher.nonce plaintext, { cipher with nonce := cipher.nonce + 1 })

/-- A failed tag check has already used up its nonce. -/
def decryptWithAd (cipher : CipherState N) (ciphertext : Bytes) :
    Option Bytes × CipherState N :=
  if cipher.nonce = lastNonce then (none, cipher)
  else (N.decrypt cipher.key cipher.nonce ciphertext, { cipher with nonce := cipher.nonce + 1 })

end CipherState

/-! ## Exceptions -/

/-- The ways a `MailDecryptionException` is raised. -/
inductive DecryptionFailure where
  | truncatedStream
  | prologueEnd
  | invalidProtocolId (protocolId : Nat)
  | truncatedPrologue
  | handshakeEnd
  | handshakeMac
  | packetLength (packetLength : Nat)
  | missingTerminator
  | decrypt
  | plaintextLength (plaintextLength : Nat)
  | userBytesLength
  | privateHeaderEnd
  | cause (name : String)
  deriving DecidableEq, Repr

/-- The custom part of the message, `none` where there is only a cause. -/
def DecryptionFailure.customMessage : DecryptionFailure → Option String
  | truncatedStream => some "Truncated stream"
  | prologueEnd => some "Premature end of stream whilst reading the prologue"
  | invalidProtocolId protocolId => some ("Invalid protocol ID " ++ toString protocolId)
  | truncatedPrologue => some "Truncated prologue"
  | handshakeEnd => some "Premature end of stream during handshake"
  | handshakeMac =>
      some "The mail could not be decrypted due to either data corruption or key mismatch"
  | packetLength length =>
      some ("Packet length " ++ toString length ++ " is less than MAC length " ++
        toString macLength)
  | missingTerminator =>
      some "Stream ended without a terminator marker. Truncation can imply a MITM attack."
  | decrypt => none
  | plaintextLength length => some ("Invalid plaintext length of " ++ toString length)
  | userBytesLength => some "Invalid user bytes length"
  | privateHeaderEnd => some "Premature end of stream while reading encrypted header"
  | cause _ => none

/-- The message `error` builds; a wrapped exception has none of its own. -/
def DecryptionFailure.message : DecryptionFailure → Option String
  | cause _ => none
  | failure =>
      some ((match failure.customMessage with
        | some custom => custom ++ ". "
        | none => "") ++ "Corrupt stream or not Conclave Mail.")

inductive StreamException where
  | mailDecryption (failure : DecryptionFailure)
  | eof
  | utfDataFormat
  | indexOutOfBounds
  | negativeArraySize
  | illegalState (message : String)
  | noise
  deriving DecidableEq, Repr

namespace StreamException

def isMailDecryption : StreamException → Bool
  | mailDecryption _ => true
  | _ => false

def name : StreamException → String
  | mailDecryption _ => "MailDecryptionException"
  | eof => "EOFException"
  | utfDataFormat => "UTFDataFormatException"
  | indexOutOfBounds => "IndexOutOfBoundsException"
  | negativeArraySize => "NegativeArraySizeException"
  | illegalState _ => "IllegalStateException"
  | noise => "GeneralSecurityException"

/-- What the handshake remembers: a `MailDecryptionException` as it is, any
other exception as the cause of a new one. -/
def asDecryptionFailure : StreamException → DecryptionFailure
  | mailDecryption failure => failure
  | e => .cause e.name

end StreamException

end Conclave.Mail
