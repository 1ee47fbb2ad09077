import Mathlib.Data.List.Nodup
import ConclaveFormal.NoiseProtocol.ChaChaPoly

/-!
# Cipher states

A cipher state is a key, once there is one, and the number of packets it has been
used for.  The number becomes the initialisation vector of the next packet, is
counted up before the cipher runs and is never used up to its last value, so no
vector is used twice under one key.
-/

set_option autoImplicit false

namespace Conclave.NoiseProtocol

open Conclave.Lib

/-! ## The ciphers -/

/-- Four zero bytes and the nonce. -/
def iv (nonce : Nat) : Bytes := List.replicate 4 0 ++ bigEndian 8 nonce

/-- `AESGCMCipherState`; without associated data there is nothing to update. -/
def AesGcm.algorithm (aes : AesGcm) : CipherAlgorithm where
  name := "AESGCM"
  exhausted := "Cannot encrypt more than 2^64 - 1 times"
  encrypt key nonce ad plaintext := aes.doEncrypt key (iv nonce) (ad.getD []) plaintext
  decrypt key nonce ad ciphertext := aes.doDecrypt key (iv nonce) (ad.getD []) ciphertext
  encrypt_length _ _ _ _ := aes.doEncrypt_length _ _ _ _
  decrypt_length _ _ _ _ _ := aes.doDecrypt_length _ _ _ _ _

/-- `ChaChaPolyCipherState`. -/
def chaChaPoly : CipherAlgorithm where
  name := "ChaChaPoly"
  exhausted := "Nonce has wrapped around"
  encrypt := ChaChaPoly.encryptWithAd
  decrypt := ChaChaPoly.decryptWithAd
  encrypt_length := ChaChaPoly.encryptWithAd_length
  decrypt_length key n ad ciphertext plaintext opened := by
    rw [(ChaChaPoly.decryptWithAd_eq_some_iff key n ad ciphertext plaintext).mp opened,
      ChaChaPoly.encryptWithAd_length]

theorem AesGcm.Decrypts.algorithm {aes : AesGcm} (decrypts : aes.Decrypts) :
    aes.algorithm.Decrypts :=
  fun key nonce ad plaintext => decrypts key (iv nonce) (ad.getD []) plaintext

theorem chaChaPoly_decrypts : chaChaPoly.Decrypts := fun key nonce ad plaintext =>
  (ChaChaPoly.decryptWithAd_eq_some_iff key nonce ad _ plaintext).mpr rfl

namespace Noise

def createCipher (crypto : Crypto) (name : String) : Except NoiseError CipherAlgorithm :=
  if name = "AESGCM" then .ok crypto.aesGcm.algorithm
  else if name = "ChaChaPoly" then .ok chaChaPoly
  else .error (.noSuchAlgorithm ("Unknown Noise cipher algorithm name: " ++ name))

/-- The curves.  `NewHope`, which the source also makes, is left out and refused here as an unknown
name, so nothing is said of protocols with it. -/
def createDH (crypto : Crypto) (name : String) : Except NoiseError DHState :=
  if name = "25519" then .ok (DHState.new crypto.curve25519)
  else if name = "448" then .ok (DHState.new crypto.curve448)
  else .error (.noSuchAlgorithm ("Unknown Noise DH algorithm name: " ++ name))

def createHash (crypto : Crypto) (name : String) : Except NoiseError HashAlgorithm :=
  if name = "SHA256" then .ok crypto.sha256
  else if name = "SHA512" then .ok crypto.sha512
  else if name = "BLAKE2b" then .ok crypto.blake2b
  else if name = "BLAKE2s" then .ok crypto.blake2s
  else .error (.noSuchAlgorithm ("Unknown Noise hash algorithm name: " ++ name))

end Noise

/-! ## The state -/

structure CipherState where
  algorithm : CipherAlgorithm
  key : Option Bytes
  nonce : Nat

def keyLength : Nat := 32

/-- The value the nonce of type `long` has at -1. -/
def lastNonce : Nat := 2 ^ 64 - 1

namespace CipherState

def new (algorithm : CipherAlgorithm) : CipherState where
  algorithm := algorithm
  key := none
  nonce := 0

def hasKey (state : CipherState) : Bool := state.key.isSome

def getMACLength (state : CipherState) : Nat := if state.hasKey then 16 else 0

def initializeKey (state : CipherState) (key : Bytes) : CipherState :=
  { state with key := some (key.take keyLength), nonce := 0 }

def fork (state : CipherState) (key : Bytes) : CipherState :=
  (new state.algorithm).initializeKey key

/-- A nonce that the cipher is run with, counted up before; the last one is refused. -/
def initCipher : Attempt CipherState NoiseError Nat := fun state =>
  if state.nonce = lastNonce then (.error (.illegalState state.algorithm.exhausted), state)
  else (.ok state.nonce, { state with nonce := state.nonce + 1 })

/-- Runs a cipher with a nonce, and notes the vector that it was given. -/
def withIV {α : Type} (nonce : Nat) (cipher : Nat → α) : α × List Bytes :=
  (cipher nonce, [iv nonce])

/-- `encryptWithAd` with the vectors the cipher is run with; `space` is what the output buffer has
from its offset on. -/
def encryptNoted (ad : Option Bytes) (plaintext : Bytes) (space : Nat) (state : CipherState) :
    (Except NoiseError Bytes × CipherState) × List Bytes :=
  match state.key with
  | none =>
      if plaintext.length > space then ((.error .shortBuffer, state), [])
      else ((.ok plaintext, state), [])
  | some key =>
      if space < 16 ∨ plaintext.length > space - 16 then ((.error .shortBuffer, state), [])
      else
        match initCipher state with
        | (.error e, state) => ((.error e, state), [])
        | (.ok nonce, state) =>
            let ran := withIV nonce fun nonce => state.algorithm.encrypt key nonce ad plaintext
            ((.ok ran.1, state), ran.2)

def encryptWithAd (ad : Option Bytes) (plaintext : Bytes) (space : Nat) :
    Attempt CipherState NoiseError Bytes := fun state =>
  (encryptNoted ad plaintext space state).1

/-- `decryptWithAd` with the vectors the cipher is run with.  A packet whose tag does not match has
used up its nonce. -/
def decryptNoted (ad : Option Bytes) (ciphertext : Bytes) (space : Nat) (state : CipherState) :
    (Except NoiseError Bytes × CipherState) × List Bytes :=
  match state.key with
  | none =>
      if ciphertext.length > space then ((.error .shortBuffer, state), [])
      else ((.ok ciphertext, state), [])
  | some key =>
      if ciphertext.length < 16 then ((.error .badTag, state), [])
      else if ciphertext.length - 16 > space then ((.error .shortBuffer, state), [])
      else
        match initCipher state with
        | (.error e, state) => ((.error e, state), [])
        | (.ok nonce, state) =>
            let ran := withIV nonce fun nonce => state.algorithm.decrypt key nonce ad ciphertext
            ((ran.1.elim (.error .badTag) .ok, state), ran.2)

def decryptWithAd (ad : Option Bytes) (ciphertext : Bytes) (space : Nat) :
    Attempt CipherState NoiseError Bytes := fun state =>
  (decryptNoted ad ciphertext space state).1

section Unkeyed

variable {state : CipherState} (ad : Option Bytes) (space : Nat)

theorem encryptWithAd_unkeyed (unkeyed : state.key = none) (plaintext : Bytes) :
    encryptWithAd ad plaintext space state =
      if plaintext.length > space then (.error .shortBuffer, state)
      else (.ok plaintext, state) := by
  simp only [encryptWithAd, encryptNoted, unkeyed]
  split <;> rfl

theorem decryptWithAd_unkeyed (unkeyed : state.key = none) (ciphertext : Bytes) :
    decryptWithAd ad ciphertext space state =
      if ciphertext.length > space then (.error .shortBuffer, state)
      else (.ok ciphertext, state) := by
  simp only [decryptWithAd, decryptNoted, unkeyed]
  split <;> rfl

end Unkeyed

section Keyed

variable {state : CipherState} {key : Bytes} (keyed : state.key = some key) (ad : Option Bytes)
  (space : Nat)

include keyed

/-- What a call of a state with a key does, and the vectors it uses. -/
theorem encryptNoted_keyed (plaintext : Bytes) :
    encryptNoted ad plaintext space state =
      if space < 16 ∨ plaintext.length > space - 16 then ((.error .shortBuffer, state), [])
      else if state.nonce = lastNonce then
        ((.error (.illegalState state.algorithm.exhausted), state), [])
      else
        ((.ok (state.algorithm.encrypt key state.nonce ad plaintext),
          { state with nonce := state.nonce + 1 }), [iv state.nonce]) := by
  simp only [encryptNoted, keyed, initCipher]
  by_cases last : state.nonce = lastNonce
  · simp only [if_pos last]
  · simp only [if_neg last, withIV]

theorem decryptNoted_keyed (ciphertext : Bytes) :
    decryptNoted ad ciphertext space state =
      if ciphertext.length < 16 then ((.error .badTag, state), [])
      else if ciphertext.length - 16 > space then ((.error .shortBuffer, state), [])
      else if state.nonce = lastNonce then
        ((.error (.illegalState state.algorithm.exhausted), state), [])
      else
        (((state.algorithm.decrypt key state.nonce ad ciphertext).elim (.error .badTag) .ok,
          { state with nonce := state.nonce + 1 }), [iv state.nonce]) := by
  simp only [decryptNoted, keyed, initCipher]
  by_cases last : state.nonce = lastNonce
  · simp only [if_pos last]
  · simp only [if_neg last, withIV]

theorem encryptWithAd_eq (plaintext : Bytes) :
    encryptWithAd ad plaintext space state =
      if space < 16 ∨ plaintext.length > space - 16 then (.error .shortBuffer, state)
      else if state.nonce = lastNonce then
        (.error (.illegalState state.algorithm.exhausted), state)
      else
        (.ok (state.algorithm.encrypt key state.nonce ad plaintext),
          { state with nonce := state.nonce + 1 }) := by
  rw [encryptWithAd, encryptNoted_keyed keyed]
  simp only [apply_ite Prod.fst]

theorem decryptWithAd_eq (ciphertext : Bytes) :
    decryptWithAd ad ciphertext space state =
      if ciphertext.length < 16 then (.error .badTag, state)
      else if ciphertext.length - 16 > space then (.error .shortBuffer, state)
      else if state.nonce = lastNonce then
        (.error (.illegalState state.algorithm.exhausted), state)
      else
        ((state.algorithm.decrypt key state.nonce ad ciphertext).elim (.error .badTag) .ok,
          { state with nonce := state.nonce + 1 }) := by
  rw [decryptWithAd, decryptNoted_keyed keyed]
  simp only [apply_ite Prod.fst]

end Keyed

/-- With a key, a packet of a tag at least is opened or has a bad tag. -/
theorem decryptWithAd_keyed {state : CipherState} {key : Bytes} (keyed : state.key = some key)
    {ad : Option Bytes} {ciphertext : Bytes} {space : Nat} (long : ¬ciphertext.length < 16)
    (enough : ¬ciphertext.length - 16 > space) :
    decryptWithAd ad ciphertext space state =
      if state.nonce = lastNonce then
        (.error (.illegalState state.algorithm.exhausted), state)
      else
        ((state.algorithm.decrypt key state.nonce ad ciphertext).elim (.error .badTag) .ok,
          { state with nonce := state.nonce + 1 }) := by
  rw [decryptWithAd_eq keyed, if_neg long, if_neg enough]

/-- What the cipher state opens: without a key any packet there is room for; with one the packets
that are authentic under the next nonce, if there is one left and room for the text. -/
theorem decryptWithAd_chaChaPoly_iff {state : CipherState} (cipher : state.algorithm = chaChaPoly)
    (ad : Option Bytes) (packet plaintext : Bytes) (space : Nat) :
    (decryptWithAd ad packet space state).1 = .ok plaintext ↔
      state.key.elim (packet = plaintext ∧ packet.length ≤ space) fun key =>
        state.nonce ≠ lastNonce ∧ packet.length ≤ space + 16 ∧ ∃ ciphertext,
          packet = ciphertext ++ NoiseCrypto.Poly1305.mac (ChaChaPoly.polyKey key state.nonce)
            (ChaChaPoly.authenticated (ad.getD []) ciphertext) ∧
          plaintext = ChaChaPoly.encrypt (ChaChaPoly.setup key state.nonce ad).2 ciphertext := by
  cases keyed : state.key with
  | none =>
      rw [decryptWithAd_unkeyed ad space keyed, Option.elim_none]
      split <;> simp <;> omega
  | some key =>
      have opens : state.algorithm.decrypt key state.nonce ad packet = some plaintext ↔
          packet = ChaChaPoly.encryptWithAd key state.nonce ad plaintext := by
        rw [cipher]
        exact ChaChaPoly.decryptWithAd_eq_some_iff key state.nonce ad packet plaintext
      have tagged : state.algorithm.decrypt key state.nonce ad packet = some plaintext →
          16 ≤ packet.length := by
        intro opened
        rw [opens.mp opened, ChaChaPoly.encryptWithAd_length]
        exact Nat.le_add_left 16 _
      rw [decryptWithAd_eq keyed, Option.elim_some, ← ChaChaPoly.eq_encryptWithAd_iff, ← opens]
      split
      · exact iff_of_false nofun fun ⟨_, _, opened⟩ => by have := tagged opened; omega
      · split
        · exact iff_of_false nofun fun ⟨_, room, _⟩ => by omega
        · split
          · rename_i last
            exact iff_of_false nofun fun ⟨unused, _⟩ => unused last
          · rename_i unused
            have room : packet.length ≤ space + 16 := by omega
            rw [and_iff_right unused, and_iff_right room]
            cases state.algorithm.decrypt key state.nonce ad packet <;> simp

/-! ## Both ends of a packet -/

section Packets

variable {state after : CipherState} {plaintext ciphertext : Bytes}
  {space : Nat}

/-- With room for the tag and a nonce left, a packet is written. -/
theorem encryptWithAd_progress (ad : Option Bytes)
    (room : plaintext.length + state.getMACLength ≤ space)
    (unused : state.nonce ≠ lastNonce) :
    ∃ ciphertext after, encryptWithAd ad plaintext space state = (.ok ciphertext, after) ∧
      ciphertext.length = plaintext.length + state.getMACLength ∧
      after.algorithm = state.algorithm ∧ after.key = state.key ∧
      after.nonce ≤ state.nonce + 1 := by
  cases keyed : state.key with
  | none =>
      have none : state.getMACLength = 0 := by simp [getMACLength, hasKey, keyed]
      refine ⟨plaintext, state, ?_, by omega, rfl, keyed, by omega⟩
      rw [encryptWithAd_unkeyed ad space keyed, if_neg (by omega)]
  | some key =>
      have tag : state.getMACLength = 16 := by simp [getMACLength, hasKey, keyed]
      refine ⟨state.algorithm.encrypt key state.nonce ad plaintext,
        { state with nonce := state.nonce + 1 }, ?_, ?_, rfl, keyed, le_refl _⟩
      · rw [encryptWithAd_eq keyed, if_neg (by omega), if_neg unused]
      · rw [state.algorithm.encrypt_length, tag]

/-- A state equal to the sender's opens the packet and stays equal to it. -/
theorem decryptWithAd_of_encryptWithAd {ad : Option Bytes} {space' : Nat}
    (decrypts : state.algorithm.Decrypts)
    (ran : encryptWithAd ad plaintext space state = (.ok ciphertext, after))
    (room : plaintext.length ≤ space') :
    decryptWithAd ad ciphertext space' state = (.ok plaintext, after) := by
  cases keyed : state.key with
  | none =>
      rw [encryptWithAd_unkeyed ad space keyed] at ran
      split at ran
      · cases ran
      · cases ran
        rw [decryptWithAd_unkeyed ad space' keyed, if_neg (by omega)]
  | some key =>
      rw [encryptWithAd_eq keyed] at ran
      split at ran
      · cases ran
      · split at ran
        · cases ran
        · rename_i unused
          cases ran
          have length := state.algorithm.encrypt_length key state.nonce ad plaintext
          rw [decryptWithAd_keyed keyed (by omega) (by omega), if_neg unused,
            decrypts key state.nonce ad plaintext]
          rfl

end Packets

/-! ## Initialisation vectors over a run -/

inductive Call where
  | encrypt (ad : Option Bytes) (plaintext : Bytes) (space : Nat)
  | decrypt (ad : Option Bytes) (ciphertext : Bytes) (space : Nat)
  deriving DecidableEq, Repr

def Call.noted : Call → CipherState → (Except NoiseError Bytes × CipherState) × List Bytes
  | encrypt ad plaintext space => encryptNoted ad plaintext space
  | decrypt ad ciphertext space => decryptNoted ad ciphertext space

/-- The vectors that the cipher is run with. -/
def ivsUsed : List Call → CipherState → List Bytes
  | [], _ => []
  | call :: calls, state => (call.noted state).2 ++ ivsUsed calls (call.noted state).1.2

theorem iv_inj {first second : Nat} (small : first < 2 ^ 64) (small' : second < 2 ^ 64)
    (same : iv first = iv second) : first = second := by
  have suffixes := List.append_cancel_left same
  have values := congrArg ofBigEndian suffixes
  rwa [ofBigEndian_bigEndian_of_lt _ _ (by norm_num; omega),
    ofBigEndian_bigEndian_of_lt _ _ (by norm_num; omega)] at values

/-- A call runs the cipher with the next nonce and counts it up, or does neither. -/
theorem Call.noted_nonce (call : Call) (state : CipherState) :
    ((call.noted state).2 = [] ∧ (call.noted state).1.2.nonce = state.nonce) ∨
      state.nonce ≠ lastNonce ∧ (call.noted state).2 = [iv state.nonce] ∧
        (call.noted state).1.2.nonce = state.nonce + 1 := by
  cases keyed : state.key with
  | none =>
      cases call with
      | encrypt ad plaintext space =>
          simp only [noted, encryptNoted, keyed]
          split <;> exact Or.inl ⟨rfl, rfl⟩
      | decrypt ad ciphertext space =>
          simp only [noted, decryptNoted, keyed]
          split <;> exact Or.inl ⟨rfl, rfl⟩
  | some key =>
      cases call with
      | encrypt ad plaintext space =>
          rw [noted, encryptNoted_keyed keyed]
          split
          · exact Or.inl ⟨rfl, rfl⟩
          · split
            · exact Or.inl ⟨rfl, rfl⟩
            · rename_i unused
              exact Or.inr ⟨unused, rfl, rfl⟩
      | decrypt ad ciphertext space =>
          rw [noted, decryptNoted_keyed keyed]
          split
          · exact Or.inl ⟨rfl, rfl⟩
          · split
            · exact Or.inl ⟨rfl, rfl⟩
            · split
              · exact Or.inl ⟨rfl, rfl⟩
              · rename_i unused
                exact Or.inr ⟨unused, rfl, rfl⟩

/-- The vectors of a run are those of different nonces below the last one. -/
theorem mem_ivsUsed (calls : List Call) {state : CipherState} {vector : Bytes}
    (bounded : state.nonce ≤ lastNonce) (used : vector ∈ ivsUsed calls state) :
    ∃ nonce, state.nonce ≤ nonce ∧ nonce < lastNonce ∧ vector = iv nonce := by
  induction calls generalizing state with
  | nil => simp [ivsUsed] at used
  | cons call calls ih =>
      rw [ivsUsed, List.mem_append] at used
      rcases call.noted_nonce state with ⟨idle, same⟩ | ⟨unused, ran, next⟩
      · rw [idle] at used
        obtain ⟨nonce, low, high, eq⟩ := ih (by omega) (used.resolve_left (by simp))
        exact ⟨nonce, by omega, high, eq⟩
      · rw [ran] at used
        rcases used with first | later
        · exact ⟨state.nonce, le_refl _, by omega, List.mem_singleton.mp first⟩
        · obtain ⟨nonce, low, high, eq⟩ := ih (by omega) later
          exact ⟨nonce, by omega, high, eq⟩

end CipherState

end Conclave.NoiseProtocol
