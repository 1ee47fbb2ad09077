import ConclaveFormal.NoiseCrypto.Sha2
import ConclaveFormal.NoiseCrypto.Blake2
import ConclaveFormal.NoiseProtocol.SymmetricState

/-!
# The hash objects behind a handshake

`Noise.createHash` falls back to the classes of this library.  A symmetric state
has one such object for everything it hashes; `HashAlgorithm`, which the
handshake is modelled with, is what that object computes.
-/

set_option autoImplicit false

namespace Conclave.NoiseProtocol

open Conclave.Lib NoiseCrypto NoiseCrypto.MessageDigest

inductive HashName where
  | SHA256
  | SHA512
  | BLAKE2b
  | BLAKE2s
  deriving DecidableEq, Repr

namespace HashName

/-- The class that `Noise.createHash` falls back to. -/
def fallback : HashName → MessageDigest
  | .SHA256 => SHA256MessageDigest.sha.messageDigest
  | .SHA512 => SHA512MessageDigest.sha.messageDigest
  | .BLAKE2b => Blake2bMessageDigest.blake.messageDigest
  | .BLAKE2s => Blake2sMessageDigest.blake.messageDigest

def hash : HashName → Bytes → Bytes
  | .SHA256 => SHA256MessageDigest.sha.hash
  | .SHA512 => SHA512MessageDigest.sha.hash
  | .BLAKE2b => Blake2bMessageDigest.blake.hash
  | .BLAKE2s => Blake2sMessageDigest.blake.hash

def computes : (name : HashName) → name.fallback.Computes name.hash
  | .SHA256 => SHA256MessageDigest.sha.computes
  | .SHA512 => SHA512MessageDigest.sha.computes
  | .BLAKE2b => Blake2bMessageDigest.blake.computes
  | .BLAKE2s => Blake2sMessageDigest.blake.computes

theorem hash_length (name : HashName) (data : Bytes) :
    (name.hash data).length = name.fallback.engineGetDigestLength := by
  cases name with
  | SHA256 => exact Sha2.output_length _
  | SHA512 => exact Sha2.output_length _
  | BLAKE2b => exact Blake2.output_length _
  | BLAKE2s => exact Blake2.output_length _

def algorithm (name : HashName) : HashAlgorithm where
  digestLength := name.fallback.engineGetDigestLength
  digest := name.hash
  digest_length := name.hash_length

/-- However the bytes are cut up and whatever the object was used for before, each digest is
the hash of the bytes since the last reset. -/
theorem play_fallback (name : HashName) (state : name.fallback.State) {calls : List DigestCall}
    (orderly : Orderly none calls) :
    name.fallback.play state calls = expected name.hash none calls :=
  name.computes.play_eq (fun _ unknown => absurd unknown (Option.some_ne_none _).symm) orderly

/-- A digest that was asked for changes the object, but not what comes after the next reset. -/
theorem play_fallback_twice :
    HashName.SHA256.fallback.play HashName.SHA256.fallback.new
        [.reset, .update 1, .digest, .reset, .updateAll [2, 3], .update 4, .digest] =
      [HashName.SHA256.hash [1], HashName.SHA256.hash [2, 3, 4]] :=
  play_fallback .SHA256 _ (by simp [Orderly, fed])

end HashName

/-! ## One object for all hashes -/

namespace SymmetricState

variable (engine : MessageDigest)

def hashOne (data : Bytes) : StateM engine.State Bytes := do
  modify engine.engineReset
  modify fun hash => engine.engineUpdateAll hash data
  modifyGet engine.engineDigest

def hashTwo (data1 data2 : Bytes) : StateM engine.State Bytes := do
  modify engine.engineReset
  modify fun hash => engine.engineUpdateAll hash data1
  modify fun hash => engine.engineUpdateAll hash data2
  modifyGet engine.engineDigest

/-- The key filled up with zeros, or the hash of one that is too long. -/
def keyBlock (key : Bytes) (blockLength : Nat) : StateM engine.State Bytes :=
  if key.length ≤ blockLength then
    return key ++ List.replicate (blockLength - key.length) 0
  else do
    let digest ← hashOne engine key
    return digest ++ List.replicate (blockLength - engine.engineGetDigestLength) 0

/-- The calls on the object are those of `hashOne` and `hashTwo`. -/
def hmac (key data : Bytes) : StateM engine.State Bytes := do
  let block ← keyBlock engine key (engine.engineGetDigestLength * 2)
  let block := block.map fun byte => byte ^^^ 0x36
  let output ← hashTwo engine block data
  let block := block.map fun byte => byte ^^^ (0x36 ^^^ 0x5C)
  hashTwo engine block output

def hkdf (key data : Bytes) (output1Length output2Length : Nat) :
    StateM engine.State (Bytes × Bytes) := do
  let tempKey ← hmac engine key data
  let tempHash ← hmac engine tempKey [0x01]
  let output1 := tempHash.take output1Length
  let tempHash ← hmac engine tempKey (tempHash ++ [0x02])
  return (output1, tempHash.take output2Length)

end SymmetricState

/-! ## What the object was used for before does not matter -/

/-- A program gives `value`, whatever state the object is in. -/
def Yields {σ α : Type} (program : StateM σ α) (value : α) : Prop :=
  ∀ state, (program state).1 = value

theorem Yields.pure {σ α : Type} (value : α) : Yields (Pure.pure value : StateM σ α) value :=
  fun _ => rfl

theorem Yields.bind {σ α β : Type} {program : StateM σ α} {next : α → StateM σ β} {value : α}
    {result : β} (first : Yields program value) (second : Yields (next value) result) :
    Yields (program >>= next) result := by
  intro state
  have given := second (program state).2
  rwa [← first state] at given

open SymmetricState

variable (name : HashName)

theorem hashOne_yields (data : Bytes) :
    Yields (hashOne name.fallback data) (name.algorithm.digest data) := by
  intro state
  exact name.computes.digest (name.computes.updateAll data (name.computes.reset state))

theorem hashTwo_yields (data1 data2 : Bytes) :
    Yields (hashTwo name.fallback data1 data2) (name.algorithm.digest (data1 ++ data2)) := by
  intro state
  exact name.computes.digest (name.computes.updateAll data2 (name.computes.updateAll data1
    (name.computes.reset state)))

theorem keyBlock_yields (key : Bytes) (blockLength : Nat) :
    Yields (keyBlock name.fallback key blockLength)
      (if key.length ≤ blockLength then key ++ List.replicate (blockLength - key.length) 0
      else name.algorithm.digest key ++
        List.replicate (blockLength - name.algorithm.digestLength) 0) := by
  rw [keyBlock]
  split
  · exact Yields.pure _
  · exact (hashOne_yields name key).bind (Yields.pure _)

theorem hmac_yields (key data : Bytes) :
    Yields (hmac name.fallback key data) (name.algorithm.hmac key data) := by
  unfold hmac
  refine (keyBlock_yields name key _).bind ?_
  exact (hashTwo_yields name _ _).bind (hashTwo_yields name _ _)

theorem hkdf_yields (key data : Bytes) (output1Length output2Length : Nat) :
    Yields (hkdf name.fallback key data output1Length output2Length)
      (name.algorithm.hkdf key data output1Length output2Length) := by
  unfold hkdf
  refine (hmac_yields name key data).bind ?_
  refine (hmac_yields name _ _).bind ?_
  exact (hmac_yields name _ _).bind (Yields.pure _)

end Conclave.NoiseProtocol
