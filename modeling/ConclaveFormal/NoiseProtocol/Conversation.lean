import ConclaveFormal.NoiseProtocol.Preparation

/-!
# Whole handshakes

`converse` lets two sides write and read in turn.  For any pattern in which a
side only mixes keys that have been exchanged, all payloads arrive, both sides
end with the same hash, and each sends with the cipher the other receives with.
-/

set_option autoImplicit false

namespace Conclave.NoiseProtocol

open Conclave.Lib Attempt Pattern HandshakeState

/-- One message from `writer` to `reader`, and what the reader makes of it. -/
def exchange (random : Nat → Bytes) (size : Nat) (payload : Bytes)
    (writer reader : HandshakeState) :
    Except NoiseError (Bytes × HandshakeState × HandshakeState) :=
  match writeMessage random size 0 (some payload) writer with
  | (.error e, _) => .error e
  | (.ok message, writer) =>
      match readMessage message size reader with
      | (.error e, _) => .error e
      | (.ok received, reader) => .ok (received, writer, reader)

/-- One message for each payload, in turn; the states are those of the side that began and of
the other one. -/
def converse (random : Bool → Nat → Bytes) (size : Nat) :
    List Bytes → HandshakeState → HandshakeState →
      Except NoiseError (List Bytes × HandshakeState × HandshakeState)
  | [], writer, reader => .ok ([], writer, reader)
  | payload :: payloads, writer, reader => do
      let (received, writer, reader) ←
        exchange (random writer.isInitiator) size payload writer reader
      let (others, reader, writer) ← converse random size payloads reader writer
      return (received :: others, writer, reader)

/-- The number of messages of a pattern. -/
def messages (tokens : List Token) : Nat := tokens.count .flipDir + 1

/-- An upper bound on what the keys add to any message. -/
def Suite.overhead (suite : Suite) (tokens : List Token) : Nat :=
  (tokens.map suite.tokenLength).sum + 16

variable {suite : Suite}

theorem keysLength_le (suite : Suite) (tokens : List Token) :
    suite.keysLength tokens + 16 ≤ suite.overhead tokens := by
  induction tokens with
  | nil => exact le_refl _
  | cons token tokens ih =>
      rw [Suite.overhead] at ih ⊢
      rw [Suite.keysLength, List.map_cons, List.sum_cons]
      split <;> omega

theorem overhead_suffix (suite : Suite) (before tokens : List Token) :
    suite.overhead tokens ≤ suite.overhead (before ++ tokens) := by
  rw [Suite.overhead, Suite.overhead, List.map_append, List.sum_append]
  omega

theorem afterMessage_messages {tokens rest : List Token}
    (after : afterMessage tokens = some rest) : messages tokens = messages rest + 1 := by
  induction tokens with
  | nil => cases after
  | cons token tokens ih =>
      rw [afterMessage] at after
      split at after
      · rename_i flips
        cases after
        rw [messages, flips, List.count_cons_self, messages]
      · rename_i stays
        rw [messages, List.count_cons_of_ne stays]
        exact ih after

theorem messages_of_last {tokens : List Token} (after : afterMessage tokens = none) :
    messages tokens = 1 := by
  induction tokens with
  | nil => rfl
  | cons token tokens ih =>
      rw [afterMessage] at after
      split at after
      · cases after
      · rename_i stays
        rw [messages, List.count_cons_of_ne stays]
        exact ih after

/-- From any turn on, one payload a message; the induction is over the payloads. -/
theorem converse_turn {random : Bool → Nat → Bytes}
    (regular : ∀ side index, (suite.algorithm .ephemeral).Regular (random side index))
    {size : Nat} (payloads : List Bytes) : ∀ (writer reader : HandshakeState),
    Turn suite writer reader → payloads.length = messages writer.remaining →
    (∀ payload ∈ payloads, suite.overhead writer.remaining + payload.length ≤ size) →
    ∃ writer' reader', converse random size payloads writer reader =
        .ok (payloads, writer', reader') ∧ Finished writer' reader' := by
  induction payloads with
  | nil =>
      intro writer reader _ count _
      cases count
  | cons payload payloads ih =>
      intro writer reader turn count room
      have overhead := room payload List.mem_cons_self
      have keys := keysLength_le suite writer.remaining
      obtain ⟨message, writer', reader', wrote, read, flipped, ended⟩ :=
        message_agrees (regular writer.isInitiator) turn payload size 0 size (by omega) (by omega)
      have first : exchange (random writer.isInitiator) size payload writer reader =
          .ok (payload, writer', reader') := by
        rw [exchange, wrote]
        show (match readMessage message size reader with
          | (.error e, _) => Except.error e
          | (.ok received, reader) => Except.ok (received, writer', reader)) = _
        rw [read]
      rw [List.length_cons] at count
      rw [converse, first]
      cases after : afterMessage writer.remaining with
      | none =>
          have last := messages_of_last after
          have nothing : payloads = [] := List.length_eq_zero_iff.mp (by omega)
          subst nothing
          exact ⟨writer', reader', rfl, ended after⟩
      | some rest =>
          obtain ⟨turn', left⟩ := flipped rest after
          obtain ⟨before, whole⟩ := afterMessage_suffix after
          have more := afterMessage_messages after
          have smaller := overhead_suffix suite before rest
          rw [← whole] at smaller
          obtain ⟨reader'', writer'', others, finished⟩ := ih reader' writer' turn'
            (by rw [left]; omega)
            (fun other member => by
              have enough := room other (List.mem_cons_of_mem _ member)
              rw [left]
              omega)
          refine ⟨writer'', reader'', ?_, ?_⟩
          · show (do
              let (others, reader, writer) ← converse random size payloads reader' writer'
              return (payload :: others, writer, reader) : Except NoiseError _) = _
            rw [others]
            rfl
          · exact ⟨finished.symmetric.symm, by rw [finished.role, Bool.not_not],
              finished.splitting', finished.splitting⟩

/-! ## After the last message -/

/-- Both sides have the same hash, and each sends with what the other receives with. -/
def SameSession (first second : HandshakeState) : Prop :=
  (∃ hash, (getHandshakeHash first).1 = .ok hash ∧ (getHandshakeHash second).1 = .ok hash) ∧
    ∀ secondaryKey : Bytes, secondaryKey.length = 0 ∨ secondaryKey.length = 32 →
      ∃ pair, (split secondaryKey first).1 = .ok pair ∧
        (split secondaryKey second).1 = .ok pair.swap

theorem split_ok {state : HandshakeState} {secondaryKey : Bytes} {pair : CipherStatePair}
    (splitting : state.action = .split) (halves : state.symmetric.split secondaryKey = .ok pair) :
    (split secondaryKey state).1 = .ok (if state.isInitiator then pair else pair.swap) := by
  rw [split, get_bind, if_neg (not_not_intro splitting), halves]
  rfl

theorem getHandshakeHash_ok {state : HandshakeState} (splitting : state.action = .split) :
    (getHandshakeHash state).1 = .ok state.symmetric.h := by
  rw [getHandshakeHash, get_bind, if_neg (fun not_split => not_split.1 splitting)]
  rfl

theorem Finished.sameSession {first second : HandshakeState} (finished : Finished first second) :
    SameSession first second := by
  refine ⟨⟨first.symmetric.h, getHandshakeHash_ok finished.splitting, ?_⟩,
    fun secondaryKey length => ?_⟩
  · rw [getHandshakeHash_ok finished.splitting', finished.symmetric]
  · have allowed : ¬(secondaryKey.length ≠ 0 ∧ secondaryKey.length ≠ 32) := fun neither =>
      length.elim neither.1 neither.2
    obtain ⟨pair, halves⟩ : ∃ pair, first.symmetric.split secondaryKey = .ok pair := by
      rw [SymmetricState.split, if_neg allowed]
      exact ⟨_, rfl⟩
    have halves' := halves
    rw [← finished.symmetric] at halves'
    have own := split_ok finished.splitting halves
    have other := split_ok finished.splitting' halves'
    rw [finished.role] at other
    cases role : first.isInitiator with
    | true =>
        rw [role] at own other
        exact ⟨pair, own, other⟩
    | false =>
        rw [role] at own other
        exact ⟨pair.swap, own, other⟩

/-! ## From the names to the session -/

theorem SymmetricState.new_cipher {crypto : Crypto} (decrypts : crypto.aesGcm.Decrypts)
    {protocolName cipherName hashName : String} {symmetric : SymmetricState}
    (built : SymmetricState.new crypto protocolName cipherName hashName = .ok symmetric) :
    symmetric.cipher.algorithm.Decrypts ∧ symmetric.cipher.nonce = 0 := by
  rw [SymmetricState.new] at built
  obtain ⟨algorithm, chosen, built⟩ := bind_eq_ok built
  obtain ⟨_, _, built⟩ := bind_eq_ok built
  cases built
  refine ⟨?_, rfl⟩
  show algorithm.Decrypts
  rw [Noise.createCipher] at chosen
  split at chosen
  · cases chosen
    exact decrypts.algorithm
  · split at chosen
    · cases chosen
      exact chaChaPoly_decrypts
    · cases chosen

/-- Nothing that is hashed before the first message touches the cipher. -/
theorem mixOptional_cipher (symmetric : SymmetricState) (prologue : Bytes)
    (psk first second : Option Bytes) :
    ((((symmetric.mixHash prologue).mixOptionalKey psk).mixOptional first).mixOptional
      second).cipher = symmetric.cipher := by
  cases psk <;> cases first <;> cases second <;> rfl

theorem handshake_agrees {crypto : Crypto} (commutes : crypto.Commutes)
    (decrypts : crypto.aesGcm.Decrypts) {protocolName dh : String} {psk : Bool} {pattern : Pattern}
    {symmetric : SymmetricState} (named : Named crypto protocolName dh psk pattern symmetric)
    {initial initial' : HandshakeState} (created : new crypto protocolName .initiator = .ok initial)
    (created' : new crypto protocolName .responder = .ok initial')
    (ready : pattern.ready = true) (ordinary : pattern.flags &&& flagRemoteEphemReq = 0)
    {first second : Party}
    (agreed : Agreed (crypto.suite commutes dh) pattern.flags psk first second)
    {random : Bool → Nat → Bytes}
    (regular : ∀ side index,
      ((crypto.suite commutes dh).algorithm .ephemeral).Regular (random side index))
    {size : Nat} {payloads : List Bytes} (count : payloads.length = messages pattern.tokens)
    (room : ∀ payload ∈ payloads,
      (crypto.suite commutes dh).overhead pattern.tokens + payload.length ≤ size) :
    ∃ initiator responder initiator' responder',
      prepare crypto protocolName .initiator first = .ok initiator ∧
      prepare crypto protocolName .responder second = .ok responder ∧
      converse random size payloads initiator responder =
        .ok (payloads, initiator', responder') ∧
      SameSession initiator' responder' := by
  have fresh {role : Role} {state : HandshakeState}
      (created : new crypto protocolName role = .ok state) :
      Fresh (crypto.suite commutes dh) pattern (role == .initiator) psk symmetric state := by
    obtain ⟨_, _, _, _, named', fresh⟩ := new_fresh commutes created
    obtain ⟨rfl, rfl, rfl, rfl⟩ := named.unique named'
    exact fresh
  obtain ⟨initiator, prepares, prepared, same, _⟩ :=
    prepare_eq created (fresh created) agreed.supplied agreed.supplied' ready ordinary
  obtain ⟨responder, prepares', prepared', same', _⟩ :=
    prepare_eq created' (fresh created') agreed.supplied' agreed.supplied ready ordinary
  rw [configured_started (fresh created) agreed.supplied agreed.supplied' ready] at same
  rw [configured_started (fresh created') agreed.supplied' agreed.supplied ready,
    agreed.prologue, agreed.preSharedKey] at same'
  obtain ⟨_, patternId, _, _, _, _, found, built⟩ := named.components
  obtain ⟨cipherDecrypts, unused⟩ := SymmetricState.new_cipher decrypts built
  obtain ⟨turn, whole⟩ := prepared_turn prepared prepared' found ready ordinary agreed same same'
    (by rw [mixOptional_cipher]; exact cipherDecrypts) (by rw [mixOptional_cipher]; exact unused)
  obtain ⟨initiator', responder', conversed, finished⟩ :=
    converse_turn regular payloads initiator responder turn (by rw [whole]; exact count)
      (by rw [whole]; exact room)
  exact ⟨initiator, responder, initiator', responder', prepares, prepares', conversed,
    finished.sameSession⟩

/-! ## A small provider -/

/-- Keys of one byte, which are multiplied. -/
def sampleCurve (name : String) : DHAlgorithm where
  name := name
  keyLength := 1
  eval key point := [key.headD 0 * (point.getD [3]).headD 0]
  eval_length _ _ := rfl

def sampleDigest (data : Bytes) : Bytes :=
  List.replicate 32 (data.foldl (fun sum byte => sum + byte) 0)

theorem sampleDigest_length (data : Bytes) : (sampleDigest data).length = 32 :=
  List.length_replicate

def sampleHash : HashAlgorithm where
  digestLength := 32
  digest := sampleDigest
  digest_length := sampleDigest_length

def sampleAes : AesGcm where
  doEncrypt _ _ _ plaintext := plaintext ++ List.replicate 16 0
  doDecrypt _ _ _ ciphertext :=
    if ciphertext.length < 16 then none else some (ciphertext.take (ciphertext.length - 16))
  doEncrypt_length _ _ _ _ := by rw [List.length_append, List.length_replicate]
  doDecrypt_length _ _ _ ciphertext plaintext opened := by
    split at opened
    · cases opened
    · cases opened
      rw [List.length_take]
      omega

def sampleCrypto : Crypto where
  curve25519 := sampleCurve "25519"
  curve448 := sampleCurve "448"
  aesGcm := sampleAes
  sha256 := sampleHash
  sha512 := sampleHash
  blake2b := sampleHash
  blake2s := sampleHash

theorem sampleCurve_commutes (name : String) : (sampleCurve name).Commutes := fun first second => by
  simp only [sampleCurve, Option.getD_some, Option.getD_none, List.headD_cons]
  rw [← UInt8.mul_assoc, ← UInt8.mul_assoc, UInt8.mul_comm (first.headD 0)]

theorem sampleCrypto_commutes : sampleCrypto.Commutes :=
  ⟨sampleCurve_commutes "25519", sampleCurve_commutes "448"⟩

theorem sampleAes_decrypts : sampleAes.Decrypts := fun _ _ _ plaintext => by
  simp [sampleAes]

theorem handshake_agrees_XX :
    ∃ initiator responder initiator' responder',
      prepare sampleCrypto "Noise_XX_25519_ChaChaPoly_SHA256" .initiator
        ⟨none, some [7], none, none⟩ = .ok initiator ∧
      prepare sampleCrypto "Noise_XX_25519_ChaChaPoly_SHA256" .responder
        ⟨none, some [9], none, none⟩ = .ok responder ∧
      converse (fun _ _ => [5]) 200 [[1], [], [2, 3]] initiator responder =
        .ok ([[1], [], [2, 3]], initiator', responder') ∧
      SameSession initiator' responder' := by
  have named : Named sampleCrypto "Noise_XX_25519_ChaChaPoly_SHA256" "25519" false
      noisePatternXX _ :=
    ⟨"Noise", "XX", "ChaChaPoly", "SHA256", by decide, by decide, rfl, rfl⟩
  have agreed : Agreed (sampleCrypto.suite sampleCrypto_commutes "25519") noisePatternXX.flags false
      ⟨none, some [7], none, none⟩ ⟨none, some [9], none, none⟩ :=
    ⟨⟨rfl, fun key given => by cases given; rfl, rfl, rfl, fun key given => by cases given⟩,
      ⟨rfl, fun key given => by cases given; rfl, rfl, rfl, fun key given => by cases given⟩,
      rfl, rfl⟩
  have regular (side : Bool) (index : Nat) :
      ((sampleCrypto.suite sampleCrypto_commutes "25519").algorithm .ephemeral).Regular [5] := by
    rw [DHAlgorithm.Regular]
    decide
  have payloads : ([[1], [], [2, 3]] : List Bytes).length = messages noisePatternXX.tokens := by
    decide
  exact handshake_agrees sampleCrypto_commutes sampleAes_decrypts named rfl rfl (by decide)
    (by decide) agreed regular payloads (by decide)

end Conclave.NoiseProtocol
