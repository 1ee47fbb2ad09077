import ConclaveFormal.Lib.Attempt
import ConclaveFormal.Lib.Bytes

/-!
# What a Noise protocol is made of

A Noise protocol puts together a Diffie-Hellman function, an authenticated
cipher and a hash function.  Each is a record of the operation the protocol
calls and of the lengths it relies on; `DHState` is a key pair or a public key
of one Diffie-Hellman function.
-/

set_option autoImplicit false

namespace Conclave.NoiseProtocol

open Conclave.Lib

/-- The exceptions of the Noise classes; `badTag` is an `AEADBadTagException`. -/
inductive NoiseError where
  | illegalArgument (message : String)
  | illegalState (message : String)
  | unsupportedOperation (message : String)
  | noSuchAlgorithm (message : String)
  | shortBuffer
  | badPadding (message : String)
  | badTag
  | nullPointer
  deriving DecidableEq, Repr

/-! ## Algorithms -/

/-- A curve: `eval` multiplies the point of a public key, or the base point, by a
private key.  Private, public and shared keys have one length. -/
structure DHAlgorithm where
  name : String
  keyLength : Nat
  eval : Bytes → Option Bytes → Bytes
  eval_length : ∀ privateKey point, (eval privateKey point).length = keyLength

structure HashAlgorithm where
  digestLength : Nat
  digest : Bytes → Bytes
  digest_length : ∀ data, (digest data).length = digestLength

/-- `encrypt` and `decrypt` take the key, the nonce of the packet, the associated
data and the text; `exhausted` is what is thrown once there are no nonces left. -/
structure CipherAlgorithm where
  name : String
  exhausted : String
  encrypt : Bytes → Nat → Option Bytes → Bytes → Bytes
  decrypt : Bytes → Nat → Option Bytes → Bytes → Option Bytes
  encrypt_length : ∀ key nonce ad plaintext,
    (encrypt key nonce ad plaintext).length = plaintext.length + 16
  decrypt_length : ∀ key nonce ad ciphertext plaintext,
    decrypt key nonce ad ciphertext = some plaintext → ciphertext.length = plaintext.length + 16

/-- Both sides of an exchange compute the same point. -/
def DHAlgorithm.Commutes (dh : DHAlgorithm) : Prop :=
  ∀ first second, dh.eval first (some (dh.eval second none)) =
    dh.eval second (some (dh.eval first none))

/-- The key pair that is generated from these bytes has a public key other than null. -/
def DHAlgorithm.Regular (dh : DHAlgorithm) (random : Bytes) : Prop :=
  ((dh.eval (random.take dh.keyLength) none).all fun byte => byte == 0) = false

def CipherAlgorithm.Decrypts (cipher : CipherAlgorithm) : Prop :=
  ∀ key nonce ad plaintext,
    cipher.decrypt key nonce ad (cipher.encrypt key nonce ad plaintext) = some plaintext

/-! ## Keys -/

inductive DHMode where
  | empty
  | publicOnly
  | keyPair
  deriving DecidableEq, Repr

/-- `Curve25519DHState` and `Curve448DHState`, which differ in their curve. -/
structure DHState where
  algorithm : DHAlgorithm
  publicKey : Bytes
  privateKey : Bytes
  mode : DHMode

namespace DHState

def new (algorithm : DHAlgorithm) : DHState where
  algorithm := algorithm
  publicKey := List.replicate algorithm.keyLength 0
  privateKey := List.replicate algorithm.keyLength 0
  mode := .empty

def setPublicKey (state : DHState) (key : Bytes) : DHState :=
  { state with
    publicKey := key.take state.algorithm.keyLength
    privateKey := List.replicate state.algorithm.keyLength 0
    mode := .publicOnly }

def setPrivateKey (state : DHState) (key : Bytes) : DHState :=
  { state with
    publicKey := state.algorithm.eval (key.take state.algorithm.keyLength) none
    privateKey := key.take state.algorithm.keyLength
    mode := .keyPair }

/-- `random` is what the random number generator fills the private key with. -/
def generateKeyPair (state : DHState) (random : Bytes) : DHState :=
  state.setPrivateKey random

def clearKey (state : DHState) : DHState := new state.algorithm

def hasPublicKey (state : DHState) : Bool := state.mode != .empty

def hasPrivateKey (state : DHState) : Bool := state.mode == .keyPair

def isNullPublicKey (state : DHState) : Bool :=
  state.hasPublicKey && state.publicKey.all fun byte => byte == 0

def calculate (state publicDH : DHState) : Except NoiseError Bytes :=
  if publicDH.algorithm.name ≠ state.algorithm.name then
    .error (.illegalArgument "Incompatible DH algorithms")
  else .ok (state.algorithm.eval state.privateKey (some publicDH.publicKey))

/-- The two keys of one side belong together. -/
structure IsKeyPair (state : DHState) : Prop where
  mode : state.mode = .keyPair
  publicKey : state.publicKey = state.algorithm.eval state.privateKey none

theorem setPrivateKey_isKeyPair (state : DHState) (key : Bytes) :
    (state.setPrivateKey key).IsKeyPair := ⟨rfl, rfl⟩

/-- Each side's private key and the other's public key give the same secret. -/
theorem calculate_comm {first second copy copy' : DHState}
    (commutes : first.algorithm.Commutes) (same : second.algorithm = first.algorithm)
    (pair : first.IsKeyPair) (pair' : second.IsKeyPair)
    (algorithm : copy.algorithm = first.algorithm) (algorithm' : copy'.algorithm = first.algorithm)
    (sent : copy.publicKey = first.publicKey) (sent' : copy'.publicKey = second.publicKey) :
    first.calculate copy' = second.calculate copy := by
  simp only [calculate, algorithm, algorithm', same, ne_eq, not_true, if_false, sent, sent',
    pair.publicKey, pair'.publicKey, commutes second.privateKey first.privateKey]

end DHState

/-! ## The provider -/

/-- AES-256 in Galois/counter mode, as the platform implements it: on the key, a
96-bit initialisation vector, the associated data and the text. -/
structure AesGcm where
  doEncrypt : Bytes → Bytes → Bytes → Bytes → Bytes
  doDecrypt : Bytes → Bytes → Bytes → Bytes → Option Bytes
  doEncrypt_length : ∀ key iv ad plaintext,
    (doEncrypt key iv ad plaintext).length = plaintext.length + 16
  doDecrypt_length : ∀ key iv ad ciphertext plaintext,
    doDecrypt key iv ad ciphertext = some plaintext → ciphertext.length = plaintext.length + 16

def AesGcm.Decrypts (aes : AesGcm) : Prop :=
  ∀ key iv ad plaintext,
    aes.doDecrypt key iv ad (aes.doEncrypt key iv ad plaintext) = some plaintext

/-- The algorithms that are not part of the protocol classes. -/
structure Crypto where
  curve25519 : DHAlgorithm
  curve448 : DHAlgorithm
  aesGcm : AesGcm
  sha256 : HashAlgorithm
  sha512 : HashAlgorithm
  blake2b : HashAlgorithm
  blake2s : HashAlgorithm

end Conclave.NoiseProtocol
