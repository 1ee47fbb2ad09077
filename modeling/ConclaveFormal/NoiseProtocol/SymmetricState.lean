import ConclaveFormal.NoiseProtocol.CipherState

/-!
# Symmetric states

A symmetric state is what the two sides of a handshake have in common: the
chaining key `ck`, the hash `h` of everything that has been sent, and the cipher
of the last key that was mixed in.  The source's `prev_h` only carries the old
`h` from the first line of `decryptAndHash` to its last.
-/

set_option autoImplicit false

namespace Conclave.NoiseProtocol

open Conclave.Lib Attempt

structure SymmetricState where
  name : String
  cipher : CipherState
  hash : HashAlgorithm
  ck : Bytes
  h : Bytes

structure CipherStatePair where
  send : CipherState
  recv : CipherState

def CipherStatePair.swap (pair : CipherStatePair) : CipherStatePair where
  send := pair.recv
  recv := pair.send

def utf8Bytes (text : String) : Bytes := text.toUTF8.data.toList

/-! ## Hashing -/

namespace HashAlgorithm

variable (hash : HashAlgorithm)

/-- The block length is twice the hash length. -/
def hmac (key data : Bytes) : Bytes :=
  let blockLength := hash.digestLength * 2
  let block :=
    if key.length ≤ blockLength then key ++ List.replicate (blockLength - key.length) 0
    else hash.digest key ++ List.replicate (blockLength - hash.digestLength) 0
  let block := block.map fun byte => byte ^^^ 0x36
  let output := hash.digest (block ++ data)
  let block := block.map fun byte => byte ^^^ (0x36 ^^^ 0x5C)
  hash.digest (block ++ output)

def hkdf (key data : Bytes) (output1Length output2Length : Nat) : Bytes × Bytes :=
  let tempKey := hash.hmac key data
  let tempHash := hash.hmac tempKey [0x01]
  let output1 := tempHash.take output1Length
  let tempHash := hash.hmac tempKey (tempHash ++ [0x02])
  (output1, tempHash.take output2Length)

end HashAlgorithm

namespace SymmetricState

def new (crypto : Crypto) (protocolName cipherName hashName : String) :
    Except NoiseError SymmetricState := do
  let cipher ← Noise.createCipher crypto cipherName
  let hash ← Noise.createHash crypto hashName
  let protocolNameBytes := utf8Bytes protocolName
  let h :=
    if protocolNameBytes.length ≤ hash.digestLength then
      protocolNameBytes ++ List.replicate (hash.digestLength - protocolNameBytes.length) 0
    else hash.digest protocolNameBytes
  return { name := protocolName, cipher := CipherState.new cipher, hash, ck := h, h }

def mixKey (state : SymmetricState) (data : Bytes) : SymmetricState :=
  let (ck, tempKey) := state.hash.hkdf state.ck data state.ck.length keyLength
  { state with ck, cipher := state.cipher.initializeKey tempKey }

def mixHash (state : SymmetricState) (data : Bytes) : SymmetricState :=
  { state with h := state.hash.digest (state.h ++ data) }

def mixPreSharedKey (state : SymmetricState) (key : Bytes) : SymmetricState :=
  let (ck, temp) := state.hash.hkdf state.ck key state.ck.length state.hash.digestLength
  { state with ck }.mixHash temp

def mixPublicKey (state : SymmetricState) (dh : DHState) : SymmetricState :=
  state.mixHash dh.publicKey

def mixPublicKeyIntoCK (state : SymmetricState) (dh : DHState) : SymmetricState :=
  state.mixKey dh.publicKey

def setCipher (cipher : CipherState) (state : SymmetricState) : SymmetricState :=
  { state with cipher }

def encryptAndHash (plaintext : Bytes) (space : Nat) :
    Attempt SymmetricState NoiseError Bytes := do
  let state ← get
  let ciphertext ← within cipher setCipher
    (CipherState.encryptWithAd (some state.h) plaintext space)
  modify fun state => state.mixHash ciphertext
  return ciphertext

def decryptAndHash (ciphertext : Bytes) (space : Nat) :
    Attempt SymmetricState NoiseError Bytes := do
  let prev_h := (← get).h
  modify fun state => state.mixHash ciphertext
  within cipher setCipher (CipherState.decryptWithAd (some prev_h) ciphertext space)

def getMACLength (state : SymmetricState) : Nat := state.cipher.getMACLength

/-- An empty secondary key is none at all. -/
def split (state : SymmetricState) (secondaryKey : Bytes) : Except NoiseError CipherStatePair :=
  if secondaryKey.length ≠ 0 ∧ secondaryKey.length ≠ 32 then
    .error (.illegalArgument "Secondary keys must be 0 or 32 bytes in length")
  else
    let (k1, k2) := state.hash.hkdf state.ck secondaryKey keyLength keyLength
    .ok { send := state.cipher.fork k1, recv := state.cipher.fork k2 }

/-! ## What the two sides get -/

variable {state after : SymmetricState} {plaintext ciphertext : Bytes} {space : Nat}

theorem encryptAndHash_progress (state : SymmetricState) (plaintext : Bytes) (space : Nat)
    (room : plaintext.length + state.getMACLength ≤ space)
    (unused : state.cipher.nonce ≠ lastNonce) :
    ∃ ciphertext after, encryptAndHash plaintext space state = (.ok ciphertext, after) ∧
      ciphertext.length = plaintext.length + state.getMACLength ∧
      after.cipher.algorithm = state.cipher.algorithm ∧
      after.cipher.key = state.cipher.key ∧ after.cipher.nonce ≤ state.cipher.nonce + 1 := by
  obtain ⟨ciphertext, cipher, ran, length, algorithm, key, nonce⟩ :=
    CipherState.encryptWithAd_progress (some state.h) room unused
  refine ⟨ciphertext, (setCipher cipher state).mixHash ciphertext, ?_, length, algorithm, key,
    nonce⟩
  rw [encryptAndHash, get_bind, bind_ok (within_eq SymmetricState.cipher setCipher ran)]
  rfl

/-- A symmetric state equal to the sender's opens what the sender has encrypted, and the two
are equal again. -/
theorem decryptAndHash_of_encryptAndHash {space' : Nat}
    (decrypts : state.cipher.algorithm.Decrypts)
    (ran : encryptAndHash plaintext space state = (.ok ciphertext, after))
    (room : plaintext.length ≤ space') :
    decryptAndHash ciphertext space' state = (.ok plaintext, after) := by
  rw [encryptAndHash, get_bind] at ran
  obtain ⟨written, middle, encrypted, ran⟩ := bind_eq_ok ran
  rw [modify_bind] at ran
  cases ran
  obtain ⟨cipher, packet, rfl⟩ := within_inverted encrypted
  have opened := CipherState.decryptWithAd_of_encryptWithAd decrypts packet room
  rw [decryptAndHash, get_bind, modify_bind]
  exact within_eq SymmetricState.cipher setCipher opened

end SymmetricState

end Conclave.NoiseProtocol
