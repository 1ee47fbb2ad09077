import ConclaveFormal.NoiseCrypto.ChaChaCore
import ConclaveFormal.NoiseCrypto.Poly1305Polynomial
import ConclaveFormal.NoiseProtocol.Algorithms

/-!
# ChaCha20 with Poly1305

The first block of a packet's key stream keys the authenticator, the following
ones are combined with the text.  The tag is over the associated data and the
ciphertext, each padded to whole blocks, and their two lengths.
-/

set_option autoImplicit false

namespace Conclave.NoiseProtocol

open Conclave.Lib NoiseCrypto

namespace ChaChaPoly

open ChaChaCore

/-- The first 32 bytes of the key stream. -/
def polyKey (key : Bytes) (n : Nat) : Bytes :=
  xorBlock (List.replicate 32 0) (hash (initIV (initKey256 key) n)).toList

/-- The authenticator with the associated data, and the block that comes first. -/
def setup (key : Bytes) (n : Nat) (ad : Option Bytes) : Poly1305 × Block :=
  let input := initIV (initKey256 key) n
  let poly := Poly1305.reset (polyKey key n)
  let poly := match ad with
    | none => poly
    | some ad => (poly.update ad).pad
  (poly, nextBlock input)

def putLittleEndian64 (value : Nat) : Bytes := littleEndian 8 value

def finish (poly : Poly1305) (ad : Option Bytes) (length : Nat) : Bytes :=
  (poly.pad.update (putLittleEndian64 (ad.elim 0 List.length) ++
    putLittleEndian64 length)).finish

def encrypt (input : Block) (data : Bytes) : Bytes :=
  if data = [] then []
  else xorBlock (data.take 64) (hash input).toList ++ encrypt (nextBlock input) (data.drop 64)
termination_by data.length
decreasing_by
  have nonempty := List.length_pos_iff.mpr ‹data ≠ []›
  rw [List.length_drop]
  omega

def encryptWithAd (key : Bytes) (n : Nat) (ad : Option Bytes) (plaintext : Bytes) : Bytes :=
  let ciphertext := encrypt (setup key n ad).2 plaintext
  ciphertext ++ finish ((setup key n ad).1.update ciphertext) ad plaintext.length

/-- The tag is compared before anything is decrypted. -/
def decryptWithAd (key : Bytes) (n : Nat) (ad : Option Bytes) (ciphertext : Bytes) :
    Option Bytes :=
  let dataLen := ciphertext.length - 16
  if ciphertext.length < 16 then none
  else if finish ((setup key n ad).1.update (ciphertext.take dataLen)) ad dataLen =
      ciphertext.drop dataLen then
    some (encrypt (setup key n ad).2 (ciphertext.take dataLen))
  else none

/-! ## The key stream -/

theorem encrypt_nil (input : Block) : encrypt input [] = [] := by
  rw [encrypt, if_pos rfl]

theorem encrypt_spec (input : Block) (data : Bytes) :
    (encrypt input data).length = data.length ∧ encrypt input (encrypt input data) = data := by
  induction input, data using encrypt.induct with
  | case1 input => simp only [encrypt_nil, and_self]
  | case2 input data nonempty ih =>
      obtain ⟨length, undone⟩ := ih
      obtain ⟨blockLength, blockUndone⟩ := xorBlock_spec (hash input).toList (data.take 64)
        (by rw [List.length_take, Vector.length_toList]; omega)
      have some := List.length_pos_iff.mpr nonempty
      rw [encrypt, if_neg nonempty]
      have total : (xorBlock (data.take 64) (hash input).toList ++
          encrypt (nextBlock input) (data.drop 64)).length = data.length := by
        rw [List.length_append, blockLength, length, ← List.length_append,
          List.take_append_drop]
      refine ⟨total, ?_⟩
      have nonempty' : xorBlock (data.take 64) (hash input).toList ++
          encrypt (nextBlock input) (data.drop 64) ≠ [] := by
        rw [← List.length_pos_iff, total]
        exact some
      -- The first block of the ciphertext is the whole of it if there is no second.
      have cut : (xorBlock (data.take 64) (hash input).toList ++
            encrypt (nextBlock input) (data.drop 64)).take 64 =
              xorBlock (data.take 64) (hash input).toList ∧
          (xorBlock (data.take 64) (hash input).toList ++
            encrypt (nextBlock input) (data.drop 64)).drop 64 =
              encrypt (nextBlock input) (data.drop 64) := by
        by_cases short : data.length < 64
        · have none : data.drop 64 = [] := List.drop_of_length_le (by omega)
          have inside : (xorBlock (data.take 64) (hash input).toList).length ≤ 64 := by
            rw [blockLength, List.length_take]
            omega
          rw [none, encrypt_nil, List.append_nil]
          exact ⟨List.take_of_length_le inside, List.drop_of_length_le inside⟩
        · have full : (xorBlock (data.take 64) (hash input).toList).length = 64 := by
            rw [blockLength, List.length_take]
            omega
          exact ⟨List.take_left' full, List.drop_left' full⟩
      rw [encrypt, if_neg nonempty', cut.1, cut.2, undone, blockUndone, List.take_append_drop]

/-! ## The tag -/

def pad16 (data : Bytes) : Bytes := data ++ List.replicate ((16 - data.length % 16) % 16) 0

/-- What is authenticated: padded to whole blocks, with the lengths. -/
def authenticated (ad ciphertext : Bytes) : Bytes :=
  pad16 ad ++ pad16 ciphertext ++
    (putLittleEndian64 ad.length ++ putLittleEndian64 ciphertext.length)

theorem pad16_length (data : Bytes) : (pad16 data).length % 16 = 0 := by
  rw [pad16, List.length_append, List.length_replicate]
  omega

theorem polyKey_length (key : Bytes) (n : Nat) : (polyKey key n).length = 32 := by
  rw [polyKey, (xorBlock_spec _ _ (by rw [Vector.length_toList]; decide)).1]
  rfl

/-- The tag of a packet is the authenticator of its data, its text and their lengths. -/
theorem finish_spec (key : Bytes) (n : Nat) (ad : Option Bytes) (ciphertext : Bytes) :
    finish ((setup key n ad).1.update ciphertext) ad ciphertext.length =
      Poly1305.mac (polyKey key n) (authenticated (ad.getD []) ciphertext) := by
  have length := polyKey_length key n
  have start := Poly1305.reset_absorbed length
  have associated : Poly1305.Absorbed (ofLittleEndian (Poly1305.clamp (polyKey key n)))
      (((polyKey key n).drop 16).take 16) (pad16 (ad.getD [])) (setup key n ad).1 := by
    cases ad with
    | none => exact start
    | some ad =>
        have padded := (start.update ad).pad
        rw [List.nil_append] at padded
        exact padded
  have padded := (associated.update ciphertext).pad
  have whole := pad16_length (ad.getD [])
  have same : (16 - (pad16 (ad.getD []) ++ ciphertext).length % 16) % 16 =
      (16 - ciphertext.length % 16) % 16 := by
    rw [List.length_append]
    omega
  rw [same, List.append_assoc] at padded
  have sizes : ad.elim 0 List.length = (ad.getD []).length := by
    cases ad <;> rfl
  rw [finish, sizes, (padded.update _).finish (by rw [List.length_take, List.length_drop]; omega)]
  rfl

/-! ## Packets -/

theorem encryptWithAd_eq (key : Bytes) (n : Nat) (ad : Option Bytes) (plaintext : Bytes) :
    encryptWithAd key n ad plaintext =
      encrypt (setup key n ad).2 plaintext ++ Poly1305.mac (polyKey key n)
        (authenticated (ad.getD []) (encrypt (setup key n ad).2 plaintext)) := by
  have tag := finish_spec key n ad (encrypt (setup key n ad).2 plaintext)
  rw [(encrypt_spec _ plaintext).1] at tag
  rw [encryptWithAd, tag]

theorem mac_length (key data : Bytes) : (Poly1305.mac key data).length = 16 :=
  littleEndian_length 16 _

theorem encryptWithAd_length (key : Bytes) (n : Nat) (ad : Option Bytes) (plaintext : Bytes) :
    (encryptWithAd key n ad plaintext).length = plaintext.length + 16 := by
  rw [encryptWithAd_eq, List.length_append, mac_length, (encrypt_spec _ plaintext).1]

/-- A packet is opened exactly if it is what encryption makes of the plaintext. -/
theorem decryptWithAd_eq_some_iff (key : Bytes) (n : Nat) (ad : Option Bytes)
    (ciphertext plaintext : Bytes) :
    decryptWithAd key n ad ciphertext = some plaintext ↔
      ciphertext = encryptWithAd key n ad plaintext := by
  constructor
  · intro opened
    rw [decryptWithAd] at opened
    split at opened
    · cases opened
    · rename_i long
      split at opened
      · rename_i tag
        obtain rfl := Option.some.inj opened
        have taken : (ciphertext.take (ciphertext.length - 16)).length =
            ciphertext.length - 16 := by
          rw [List.length_take]
          omega
        rw [encryptWithAd, (encrypt_spec _ _).2, (encrypt_spec _ _).1, taken, tag,
          List.take_append_drop]
      · cases opened
  · rintro rfl
    have length := encryptWithAd_length key n ad plaintext
    have text := (encrypt_spec (setup key n ad).2 plaintext).1
    have size : plaintext.length + 16 - 16 = (encrypt (setup key n ad).2 plaintext).length := by
      rw [text]
      omega
    have cut : (encryptWithAd key n ad plaintext).take (plaintext.length + 16 - 16) =
        encrypt (setup key n ad).2 plaintext := by
      rw [size, encryptWithAd, List.take_left]
    have tag : (encryptWithAd key n ad plaintext).drop (plaintext.length + 16 - 16) =
        finish ((setup key n ad).1.update (encrypt (setup key n ad).2 plaintext)) ad
          plaintext.length := by
      rw [size, encryptWithAd, List.drop_left]
    rw [decryptWithAd]
    simp only [length, cut, tag]
    rw [if_neg (by omega), Nat.add_sub_cancel, if_pos rfl, (encrypt_spec _ _).2]

/-- What encryption makes of a plaintext ends in the authenticator of its text. -/
theorem eq_encryptWithAd_iff (key : Bytes) (n : Nat) (ad : Option Bytes)
    (packet plaintext : Bytes) :
    packet = encryptWithAd key n ad plaintext ↔
      ∃ ciphertext,
        packet = ciphertext ++
          Poly1305.mac (polyKey key n) (authenticated (ad.getD []) ciphertext) ∧
        plaintext = encrypt (setup key n ad).2 ciphertext := by
  rw [encryptWithAd_eq]
  constructor
  · rintro rfl
    exact ⟨_, rfl, (encrypt_spec _ plaintext).2.symm⟩
  · rintro ⟨ciphertext, rfl, rfl⟩
    rw [(encrypt_spec _ ciphertext).2]

/-- What is opened is what ends in the authenticator of its text, and nothing else. -/
theorem opens_iff_authentic (key : Bytes) (n : Nat) (ad : Option Bytes)
    (packet plaintext : Bytes) :
    decryptWithAd key n ad packet = some plaintext ↔
      ∃ ciphertext,
        packet = ciphertext ++
          Poly1305.mac (polyKey key n) (authenticated (ad.getD []) ciphertext) ∧
        plaintext = encrypt (setup key n ad).2 ciphertext := by
  rw [decryptWithAd_eq_some_iff]
  exact eq_encryptWithAd_iff key n ad packet plaintext

end ChaChaPoly

end Conclave.NoiseProtocol
