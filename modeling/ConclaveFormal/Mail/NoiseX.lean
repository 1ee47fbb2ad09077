import ConclaveFormal.Mail.PostOffice
import ConclaveFormal.NoiseProtocol.Conversation

/-!
# Mail over the handshake classes

The mail streams use a `HandshakeState` with the one-message pattern X.  `noiseX`
is the interface the streams are written against, with every operation computed
by the handshake and cipher classes, so what holds of the streams over any such
interface holds of mail as it is sent.
-/

set_option autoImplicit false

namespace Conclave.Mail

open Conclave.Lib Attempt Conclave.NoiseProtocol HandshakeState

/-- The algorithms of the protocol: keys of 32 bytes, a curve on which both sides find the same
point and no private key gives the null point, and a cipher that can be undone. -/
structure MailCrypto where
  crypto : Crypto
  keyLength : crypto.curve25519.keyLength = 32
  commutes : crypto.curve25519.Commutes
  regular : ∀ random, crypto.curve25519.Regular random
  decrypts : crypto.aesGcm.Decrypts

def MailProtocol.noiseProtocolName : MailProtocol → String
  | senderKeyTransmitted => "Noise_X_25519_AESGCM_SHA256"
  | senderKeyTransmittedV2 => "Noise_X_25519_AESGCM_SHA256"

/-! ## The two ends of a mail -/

def check (condition : Bool) : Handshaking Unit :=
  if condition then pure () else throw (.illegalState "Check failed.")

def checkAction (action : Action) : Handshaking Unit := do
  check ((← get).action == action)

/-- `MailEncryptingStream.handshake`: what it writes behind the prologue and the cipher of the
packets. -/
def handshake (destination senderKey prologue payload random : Bytes) :
    Handshaking (Bytes × NoiseProtocol.CipherState) := do
  setRemotePublicKey destination
  setLocalPrivateKey senderKey
  setPrologue prologue
  start
  checkAction .writeMessage
  let handshakeBytes ← writeMessage (fun _ => random) (96 + payload.length) 0 (some payload)
  check (handshakeBytes.length == 96 + payload.length)
  checkAction .split
  let pair ← split []
  checkAction .complete
  return (handshakeBytes, pair.send)

/-- `MailDecryptingStream.setupHandshake` and what `maybeHandshake` takes from it; the message
has no more payload than the protocol has. -/
def setupHandshake (privateKey prologue handshakeBuf : Bytes) :
    Handshaking (Bytes × NoiseProtocol.CipherState) := do
  setLocalPrivateKey privateKey
  setPrologue prologue
  start
  checkAction .readMessage
  let _ ← readMessage handshakeBuf (handshakeBuf.length - 96)
  checkAction .split
  match (← get).remotePublicKey with
  | none => throw .nullPointer
  | some remote => do
      let pair ← split []
      checkAction .complete
      return (remote.publicKey, pair.recv)

def runHandshake {α : Type} (crypto : Crypto) (protocol : MailProtocol) (role : Role)
    (body : Handshaking α) : Except NoiseError α := do
  (body (← HandshakeState.new crypto protocol.noiseProtocolName role)).1

theorem check_bind {α : Type} {condition : Bool} {next : Unit → Handshaking α}
    {state : HandshakeState} (holds : condition = true) :
    (check condition >>= next) state = next () state := by
  rw [check, if_pos holds]
  rfl

theorem checkAction_bind {α : Type} {action : Action} {next : Unit → Handshaking α}
    {state : HandshakeState} (holds : state.action = action) :
    (checkAction action >>= next) state = next () state := by
  have checked : checkAction action state = (.ok (), state) := by
    rw [checkAction, get_bind, check, if_pos (beq_iff_eq.mpr holds)]
    rfl
  exact bind_ok checked

/-! ## One X message -/

section Message

variable (mail : MailCrypto) (symmetric : SymmetricState)

/-- The initiator needs the other side's key, and both hash it before the message. -/
def requirementsX (role : Role) : UInt32 :=
  if role = .initiator then localRequired ||| remoteRequired ||| remotePremsg
  else localRequired ||| localPremsg

/-- A new state of either side: the initiator sends the ephemeral key, the responder gets it. -/
def freshX (role : Role) : HandshakeState where
  symmetric := symmetric
  isInitiator := role == .initiator
  localKeyPair := some (DHState.new mail.crypto.curve25519)
  localEphemeral :=
    if role = .initiator then some (DHState.new mail.crypto.curve25519) else none
  localHybrid := none
  remotePublicKey := some (DHState.new mail.crypto.curve25519)
  remoteEphemeral :=
    if role = .initiator then none else some (DHState.new mail.crypto.curve25519)
  remoteHybrid := none
  action := .noAction
  requirements := requirementsX role
  pattern := Pattern.noisePatternX
  patternIndex := 0
  preSharedKey := none
  prologue := none

theorem new_freshX {protocol : MailProtocol}
    (built : SymmetricState.new mail.crypto protocol.noiseProtocolName "AESGCM" "SHA256" =
      .ok symmetric) (role : Role) :
    HandshakeState.new mail.crypto protocol.noiseProtocolName role =
      .ok (freshX mail symmetric role) := by
  have components : splitName protocol.noiseProtocolName =
      ["Noise", "X", "25519", "AESGCM", "SHA256"] := by
    cases protocol <;> decide
  rw [HandshakeState.new, components]
  simp only
  rw [built]
  cases role <;> rfl

variable (own dest eph : DHState) (payload : Bytes)

/-- After the tokens `e` and `es`. -/
def afterEphemeral : SymmetricState :=
  (symmetric.mixHash eph.publicKey).mixKey
    (mail.crypto.curve25519.eval eph.privateKey (some dest.publicKey))

/-- What both sides compute for the two encrypted parts of the message. -/
structure XMessage where
  key : Bytes
  body : Bytes
  keyed : SymmetricState
  final : SymmetricState
  sealed : SymmetricState.encryptAndHash own.publicKey (64 + payload.length)
    (afterEphemeral mail symmetric dest eph) = (.ok key, keyed)
  key_length : key.length = 48
  keyed_cipher : keyed.cipher.algorithm = symmetric.cipher.algorithm
  closed : SymmetricState.encryptAndHash payload (16 + payload.length)
    (keyed.mixKey (mail.crypto.curve25519.eval own.privateKey (some dest.publicKey))) =
      (.ok body, final)
  body_length : body.length = 16 + payload.length
  final_cipher : final.cipher.algorithm = symmetric.cipher.algorithm

theorem exists_xMessage (curve : own.algorithm = mail.crypto.curve25519) (pair : own.IsKeyPair) :
    Nonempty (XMessage mail symmetric own dest eph payload) := by
  have length : own.publicKey.length = 32 := by
    rw [pair.publicKey, own.algorithm.eval_length, curve, mail.keyLength]
  obtain ⟨key, keyed, sealed, keyLength, keyedCipher, _⟩ :=
    SymmetricState.encryptAndHash_progress (afterEphemeral mail symmetric dest eph) own.publicKey
      (64 + payload.length)
      (by
        rw [length]
        show 32 + 16 ≤ 64 + payload.length
        omega)
      (by decide : (0 : Nat) ≠ NoiseProtocol.lastNonce)
  obtain ⟨body, final, closed, bodyLength, finalCipher, _⟩ :=
    SymmetricState.encryptAndHash_progress
      (keyed.mixKey (mail.crypto.curve25519.eval own.privateKey (some dest.publicKey))) payload
      (16 + payload.length) (Nat.le_of_eq (Nat.add_comm _ 16))
      (by decide : (0 : Nat) ≠ NoiseProtocol.lastNonce)
  exact ⟨⟨key, body, keyed, final, sealed, by rw [keyLength, length]; rfl, keyedCipher, closed,
    bodyLength.trans (Nat.add_comm _ 16), finalCipher.trans keyedCipher⟩⟩

theorem calculate_curve {mine other : DHState} (curve : mine.algorithm = mail.crypto.curve25519)
    (curve' : other.algorithm = mail.crypto.curve25519) :
    mine.calculate other =
      .ok (mail.crypto.curve25519.eval mine.privateKey (some other.publicKey)) := by
  rw [DHState.calculate, curve, curve', if_neg (not_not_intro rfl)]

/-- A side of the handshake once it has started. -/
def startedX (role : Role) (localKeyPair remotePublicKey : DHState) (prologue : Bytes) :
    HandshakeState :=
  { freshX mail symmetric role with
    localKeyPair := some localKeyPair
    remotePublicKey := some remotePublicKey
    prologue := some prologue
    action := if role = .initiator then .writeMessage else .readMessage }

/-- The same side between two tokens, once there is an ephemeral key. -/
def midX (role : Role) (localKeyPair remotePublicKey ephemeral : DHState) (prologue : Bytes)
    (patternIndex : Nat) : HandshakeState :=
  { startedX mail symmetric role localKeyPair remotePublicKey prologue with
    localEphemeral := if role = .initiator then some ephemeral else none
    remoteEphemeral := if role = .initiator then none else some ephemeral
    patternIndex }

variable {mail symmetric own dest eph payload}

/-- The secret that one side computes. -/
def secret (mail : MailCrypto) (mine other : DHState) : Bytes :=
  mail.crypto.curve25519.eval mine.privateKey (some other.publicKey)

theorem writeMessage_x {random prologue : Bytes}
    (generated : eph = (DHState.new mail.crypto.curve25519).generateKeyPair random)
    (curve : own.algorithm = mail.crypto.curve25519)
    (curve' : dest.algorithm = mail.crypto.curve25519)
    (message : XMessage mail symmetric own dest eph payload) :
    writeMessage (fun _ => random) (96 + payload.length) 0 (some payload)
        (startedX mail symmetric .initiator own dest prologue) =
      (.ok (eph.publicKey ++ (message.key ++ message.body)),
        { midX mail message.final .initiator own dest eph prologue 4 with action := .split }) := by
  have length : eph.publicKey.length = 32 := by
    rw [generated]
    exact (mail.crypto.curve25519.eval_length _ _).trans mail.keyLength
  have ephemeral : eph.algorithm = mail.crypto.curve25519 := by
    rw [generated]
    rfl
  have e : writeToken random (96 + payload.length) .e
      { startedX mail symmetric .initiator own dest prologue with patternIndex := 1 } =
      (.ok eph.publicKey,
        midX mail (symmetric.mixHash eph.publicKey) .initiator own dest eph prologue 1) := by
    rw [writeToken_ephemeral rfl (by
      rw [show (DHState.new mail.crypto.curve25519).algorithm.keyLength = 32 from mail.keyLength]
      omega), ← generated]
    rfl
  have es (space : Nat) : writeToken random space .es
      (midX mail (symmetric.mixHash eph.publicKey) .initiator own dest eph prologue 2) =
      (.ok [], midX mail (afterEphemeral mail symmetric dest eph) .initiator own dest eph
        prologue 2) := by
    rw [writeToken_mixed rfl]
    exact bind_ok (mixDH_eq _ (calculate_curve mail ephemeral curve'))
  have s {space : Nat} (left : space = 64 + payload.length) : writeToken random space .s
      (midX mail (afterEphemeral mail symmetric dest eph) .initiator own dest eph prologue 3) =
      (.ok message.key, midX mail message.keyed .initiator own dest eph prologue 3) := by
    subst left
    refine writeToken_static rfl ?_ (within_eq HandshakeState.symmetric setSymmetric message.sealed)
    rw [curve, mail.keyLength]
    show 32 + 16 ≤ 64 + payload.length
    omega
  have ss (space : Nat) : writeToken random space .ss
      (midX mail message.keyed .initiator own dest eph prologue 4) =
      (.ok [], midX mail (message.keyed.mixKey (secret mail own dest)) .initiator own dest
        eph prologue 4) := by
    rw [writeToken_mixed rfl]
    exact bind_ok (mixDH_eq _ (calculate_curve mail curve curve'))
  have tokens : writeTokens (fun _ => random) [.e, .es, .s, .ss] (96 + payload.length)
      (startedX mail symmetric .initiator own dest prologue) =
      (.ok (eph.publicKey ++ ([] ++ (message.key ++ ([] ++ [])))),
        { midX mail (message.keyed.mixKey (secret mail own dest)) .initiator own dest eph
            prologue 4 with
          action := .split }) := by
    have left : 96 + payload.length - eph.publicKey.length - ([] : Bytes).length =
        64 + payload.length := by
      rw [length, List.length_nil]
      omega
    exact writeTokens_cons (by decide) e (writeTokens_cons (by decide) (es _)
      (writeTokens_cons (by decide) (s left) (writeTokens_cons (by decide) (ss _) rfl)))
  rw [writeMessage, get_bind, if_neg (fun differs => differs rfl), if_neg (Nat.not_lt_zero _)]
  refine handle_ok ((bind_ok tokens).trans ?_)
  have space : 96 + payload.length - 0 -
      (eph.publicKey ++ ([] ++ (message.key ++ ([] ++ [])))).length = 16 + payload.length := by
    simp only [List.append_nil, List.nil_append, List.length_append, length, message.key_length]
    omega
  rw [space]
  refine (bind_ok (within_eq HandshakeState.symmetric setSymmetric message.closed)).trans ?_
  simp only [List.append_nil, List.nil_append, List.append_assoc]
  rfl

theorem readMessage_x {random prologue : Bytes} {mine : DHState}
    (generated : eph = (DHState.new mail.crypto.curve25519).generateKeyPair random)
    (curve : own.algorithm = mail.crypto.curve25519) (pair : own.IsKeyPair)
    (curve' : mine.algorithm = mail.crypto.curve25519) (pair' : mine.IsKeyPair)
    (same : dest.publicKey = mine.publicKey)
    (cipher : symmetric.cipher.algorithm = mail.crypto.aesGcm.algorithm)
    (message : XMessage mail symmetric own dest eph payload) :
    ∃ seen seenEph : DHState, seen.publicKey = own.publicKey ∧
      readMessage (eph.publicKey ++ (message.key ++ message.body)) payload.length
          (startedX mail symmetric .responder mine (DHState.new mail.crypto.curve25519) prologue) =
        (.ok payload,
          { midX mail message.final .responder mine seen seenEph prologue 4 with
            action := .split }) := by
  obtain ⟨seenEph, seenEph_eq⟩ : ∃ seenEph,
      (DHState.new mail.crypto.curve25519).setPublicKey eph.publicKey = seenEph := ⟨_, rfl⟩
  obtain ⟨seen, seen_eq⟩ : ∃ seen,
      (DHState.new mail.crypto.curve25519).setPublicKey own.publicKey = seen := ⟨_, rfl⟩
  have ephCurve : eph.algorithm = mail.crypto.curve25519 := by
    rw [generated]
    rfl
  have ephPair : eph.IsKeyPair := by
    rw [generated]
    exact DHState.setPrivateKey_isKeyPair _ _
  have length : eph.publicKey.length = mail.crypto.curve25519.keyLength := by
    rw [ephPair.publicKey, eph.algorithm.eval_length, ephCurve]
  have length' : own.publicKey.length = mail.crypto.curve25519.keyLength := by
    rw [pair.publicKey, own.algorithm.eval_length, curve]
  obtain ⟨copied, valid⟩ : seenEph.publicKey = eph.publicKey ∧ seenEph.isNullPublicKey = false := by
    rw [← seenEph_eq, generated]
    exact @seen_valid (DHState.new mail.crypto.curve25519) _ random (mail.regular random) rfl
  have copied' : seen.publicKey = own.publicKey := by
    rw [← seen_eq]
    exact List.take_of_length_le length'.le
  -- Both sides compute the same two secrets.
  have first : secret mail mine seenEph = secret mail eph dest := by
    rw [secret, secret, copied, same, ephPair.publicKey, pair'.publicKey, ephCurve, curve']
    exact mail.commutes _ _
  have second : secret mail mine seen = secret mail own dest := by
    rw [secret, secret, copied', same, pair.publicKey, pair'.publicKey, curve, curve']
    exact mail.commutes _ _
  have e (rest : Bytes) : readToken (eph.publicKey ++ rest) .e
      { startedX mail symmetric .responder mine (DHState.new mail.crypto.curve25519) prologue with
        patternIndex := 1 } =
      (.ok rest, midX mail (symmetric.mixHash eph.publicKey) .responder mine
        (DHState.new mail.crypto.curve25519) seenEph prologue 1) := by
    rw [readToken_ephemeral rfl length (by rw [seenEph_eq]; exact valid), seenEph_eq]
    rfl
  have es (rest : Bytes) : readToken rest .es
      (midX mail (symmetric.mixHash eph.publicKey) .responder mine
        (DHState.new mail.crypto.curve25519) seenEph prologue 2) =
      (.ok rest, midX mail (afterEphemeral mail symmetric dest eph) .responder mine
        (DHState.new mail.crypto.curve25519) seenEph prologue 2) := by
    rw [readToken_mixed rfl, afterEphemeral, ← secret, ← first]
    exact bind_ok (mixDH_eq _ (calculate_curve mail curve' (by rw [← seenEph_eq]; rfl)))
  have s (rest : Bytes) : readToken (message.key ++ rest) .s
      (midX mail (afterEphemeral mail symmetric dest eph) .responder mine
        (DHState.new mail.crypto.curve25519) seenEph prologue 3) =
      (.ok rest, midX mail message.keyed .responder mine seen seenEph prologue 3) := by
    rw [← seen_eq]
    exact readToken_static rfl (readPublicKey_sent
      (by
        show symmetric.cipher.algorithm.Decrypts
        rw [cipher]
        exact mail.decrypts.algorithm)
      message.sealed
      (by
        rw [message.key_length, length', mail.keyLength]
        rfl)
      length' rest)
  have ss (rest : Bytes) : readToken rest .ss
      (midX mail message.keyed .responder mine seen seenEph prologue 4) =
      (.ok rest, midX mail (message.keyed.mixKey (secret mail own dest)) .responder mine seen
        seenEph prologue 4) := by
    rw [readToken_mixed rfl, ← second]
    exact bind_ok (mixDH_eq _ (calculate_curve mail curve' (by rw [← seen_eq]; rfl)))
  have tokens : readTokens [.e, .es, .s, .ss] (eph.publicKey ++ (message.key ++ message.body))
      (startedX mail symmetric .responder mine (DHState.new mail.crypto.curve25519) prologue) =
      (.ok message.body,
        { midX mail (message.keyed.mixKey (secret mail own dest)) .responder mine seen seenEph
            prologue 4 with
          action := .split }) := by
    rw [readTokens_cons (by decide) (e _), readTokens_cons (by decide) (es _),
      readTokens_cons (by decide) (s _), readTokens_cons (by decide) (ss _)]
    rfl
  refine ⟨seen, seenEph, copied', ?_⟩
  rw [readMessage, get_bind, if_neg (fun differs => differs rfl)]
  refine handle_ok ((bind_ok tokens).trans ?_)
  have opened := SymmetricState.decryptAndHash_of_encryptAndHash
    (by
      show message.keyed.cipher.algorithm.Decrypts
      rw [message.keyed_cipher, cipher]
      exact mail.decrypts.algorithm)
    message.closed (le_refl payload.length)
  exact within_eq HandshakeState.symmetric setSymmetric opened

/-! ## Before and after the message -/

/-- Either side with its keys and the prologue. -/
def configuredX (mail : MailCrypto) (symmetric : SymmetricState) (role : Role)
    (localKeyPair remotePublicKey : DHState) (prologue : Bytes) : HandshakeState :=
  { freshX mail symmetric role with
    localKeyPair := some localKeyPair
    remotePublicKey := some remotePublicKey
    prologue := some prologue }

theorem requires_x {role : Role} {prologue : Bytes} (requirement : UInt32) :
    (configuredX mail symmetric role own dest prologue).requires requirement =
      (requirementsX role &&& requirement != 0) := rfl

theorem start_x {role : Role} {prologue : Bytes} (pair : own.IsKeyPair)
    (given : role = .initiator → dest.hasPublicKey = true) :
    start (configuredX mail symmetric role own dest prologue) =
      (.ok (), startedX mail ((symmetric.mixHash prologue).mixHash
        (if role = .initiator then dest else own).publicKey) role own dest prologue) := by
  have private_given : hasPrivateKey (some own) = true := by
    show (own.mode == .keyPair) = true
    rw [pair.mode]
    rfl
  have can : CanStart (configuredX mail symmetric role own dest prologue) := by
    have ordinary : Pattern.noisePatternX.flags &&& Pattern.flagRemoteEphemReq = 0 := by decide
    refine ⟨rfl, fun fallback => absurd ordinary fallback, fun _ => private_given,
      fun needed => ?_, fun needed => ?_, fun _ => rfl, fun _ => rfl, fun needed => ?_⟩
    all_goals
      rw [requires_x] at needed
      cases role with
      | initiator => first | exact given rfl | exact absurd needed (by decide)
      | responder => exact absurd needed (by decide)
  have remote : ∀ role, (requirementsX role &&& remotePremsg != 0) = (role == .initiator) := by
    intro role
    cases role <;> decide
  have own' : ∀ role, (requirementsX role &&& localPremsg != 0) = (role == .responder) := by
    intro role
    cases role <;> decide
  have reused : ∀ role, (requirementsX role &&& fallbackPremsg != 0) = false := by
    intro role
    cases role <;> decide
  rw [start_eq can]
  simp only [started, premessages, premessage, reusedKeys, requires_x, remote, own', reused]
  cases role <;> rfl

/-- The key of the cipher that the initiator sends with. -/
def sendingKey (final : SymmetricState) : Bytes :=
  (final.hash.hkdf final.ck [] keyLength keyLength).1.take keyLength

/-- The whole handshake on the sending side. -/
theorem handshake_x {destination senderKey prologue random : Bytes} {start : SymmetricState}
    (hashed : start = (symmetric.mixHash prologue).mixHash
      ((DHState.new mail.crypto.curve25519).setPublicKey destination).publicKey)
    (message : XMessage mail start ((DHState.new mail.crypto.curve25519).setPrivateKey senderKey)
      ((DHState.new mail.crypto.curve25519).setPublicKey destination)
      ((DHState.new mail.crypto.curve25519).generateKeyPair random) payload) :
    (handshake destination senderKey prologue payload random
        (freshX mail symmetric .initiator)).1 =
      .ok (((DHState.new mail.crypto.curve25519).generateKeyPair random).publicKey ++
          (message.key ++ message.body),
        ⟨message.final.cipher.algorithm, some (sendingKey message.final), 0⟩) := by
  have length : ((DHState.new mail.crypto.curve25519).generateKeyPair random).publicKey.length =
      32 := (mail.crypto.curve25519.eval_length _ _).trans mail.keyLength
  have configured : handshake destination senderKey prologue payload random
      (freshX mail symmetric .initiator) =
      (do
        HandshakeState.start
        checkAction .writeMessage
        let handshakeBytes ←
          writeMessage (fun _ => random) (96 + payload.length) 0 (some payload)
        check (handshakeBytes.length == 96 + payload.length)
        checkAction .split
        let pair ← split []
        checkAction .complete
        return (handshakeBytes, pair.send) :
          Handshaking (Bytes × NoiseProtocol.CipherState))
        (configuredX mail symmetric .initiator
          ((DHState.new mail.crypto.curve25519).setPrivateKey senderKey)
          ((DHState.new mail.crypto.curve25519).setPublicKey destination) prologue) := rfl
  have wrote := @writeMessage_x mail start _ _ _ payload random prologue rfl rfl rfl message
  rw [configured, bind_ok (start_x (DHState.setPrivateKey_isKeyPair _ _) fun _ => rfl), if_pos rfl,
    ← hashed]
  have whole : (((DHState.new mail.crypto.curve25519).generateKeyPair random).publicKey ++
      (message.key ++ message.body)).length = 96 + payload.length := by
    rw [List.length_append, List.length_append, length, message.key_length, message.body_length]
    omega
  rw [checkAction_bind (by rfl), bind_ok wrote, check_bind (beq_iff_eq.mpr whole),
    checkAction_bind (by rfl)]
  rfl

/-- The same message on the side whose public key it was sent to. -/
theorem setupHandshake_x {privateKey prologue random : Bytes} {start : SymmetricState}
    (cipher : symmetric.cipher.algorithm = mail.crypto.aesGcm.algorithm)
    (curve : own.algorithm = mail.crypto.curve25519) (pair : own.IsKeyPair)
    (same : dest.publicKey =
      ((DHState.new mail.crypto.curve25519).setPrivateKey privateKey).publicKey)
    (hashed : start = (symmetric.mixHash prologue).mixHash dest.publicKey)
    (message : XMessage mail start own dest
      ((DHState.new mail.crypto.curve25519).generateKeyPair random) payload) :
    (setupHandshake privateKey prologue
        (((DHState.new mail.crypto.curve25519).generateKeyPair random).publicKey ++
          (message.key ++ message.body)) (freshX mail symmetric .responder)).1 =
      .ok (own.publicKey,
        ⟨message.final.cipher.algorithm, some (sendingKey message.final), 0⟩) := by
  obtain ⟨handshakeBuf, handshakeBuf_eq⟩ : ∃ handshakeBuf,
      ((DHState.new mail.crypto.curve25519).generateKeyPair random).publicKey ++
        (message.key ++ message.body) = handshakeBuf := ⟨_, rfl⟩
  have whole : handshakeBuf.length - 96 = payload.length := by
    have length : ((DHState.new mail.crypto.curve25519).generateKeyPair random).publicKey.length =
        32 := (mail.crypto.curve25519.eval_length _ _).trans mail.keyLength
    rw [← handshakeBuf_eq, List.length_append, List.length_append, length, message.key_length,
      message.body_length]
    omega
  have configured : setupHandshake privateKey prologue handshakeBuf
      (freshX mail symmetric .responder) =
      (do
        HandshakeState.start
        checkAction .readMessage
        let _ ← readMessage handshakeBuf (handshakeBuf.length - 96)
        checkAction .split
        match (← get).remotePublicKey with
        | none => throw .nullPointer
        | some remote => do
            let pair ← split []
            checkAction .complete
            return (remote.publicKey, pair.recv) :
          Handshaking (Bytes × NoiseProtocol.CipherState))
        (configuredX mail symmetric .responder
          ((DHState.new mail.crypto.curve25519).setPrivateKey privateKey)
          (DHState.new mail.crypto.curve25519) prologue) := rfl
  obtain ⟨seen, seenEph, copied, read⟩ := @readMessage_x mail start _ _ _ payload random prologue
    ((DHState.new mail.crypto.curve25519).setPrivateKey privateKey) rfl curve pair rfl
    (DHState.setPrivateKey_isKeyPair _ _) same (by rw [hashed]; exact cipher) message
  have started := @start_x mail symmetric
    ((DHState.new mail.crypto.curve25519).setPrivateKey privateKey)
    (DHState.new mail.crypto.curve25519) .responder prologue (DHState.setPrivateKey_isKeyPair _ _)
    (fun sends => by cases sends)
  rw [if_neg (by decide), ← same, ← hashed] at started
  rw [handshakeBuf_eq] at read ⊢
  rw [configured, bind_ok started, checkAction_bind (by rfl), whole, bind_ok read,
    checkAction_bind (by rfl), ← copied]
  rfl

end Message

/-! ## The interface of the streams -/

/-- The value of a computation that does not fail. -/
def valueOf {ε α : Type} : (outcome : Except ε α) → (∃ value, outcome = .ok value) → α
  | .ok value, _ => value
  | .error _, failed => absurd failed (by
      rintro ⟨_, impossible⟩
      cases impossible)

theorem valueOf_eq {ε α : Type} {outcome : Except ε α} {value : α} (returned : outcome = .ok value)
    (ok : ∃ value, outcome = .ok value) : valueOf outcome ok = value := by
  cases returned
  rfl

/-- `Curve25519PrivateKey` and `Curve25519PublicKey`. -/
structure Curve25519Key where
  encoded : Bytes
  size : encoded.length = 32

/-- `privateCurve25519KeyToPublic`. -/
def curve25519PublicKey (mail : MailCrypto) (privateKey : Curve25519Key) : Curve25519Key where
  encoded := ((DHState.new mail.crypto.curve25519).setPrivateKey privateKey.encoded).publicKey
  size := (mail.crypto.curve25519.eval_length _ _).trans mail.keyLength

/-- What a new stream writes, and the cipher of its packets. -/
def sendHandshake (mail : MailCrypto) (destination sender : Curve25519Key)
    (random prologue payload : Bytes) : Except NoiseError (Bytes × NoiseProtocol.CipherState) :=
  runHandshake mail.crypto .senderKeyTransmittedV2 .initiator
    (handshake destination.encoded sender.encoded prologue payload random)

/-- Who the stream is from, and the cipher of its packets. -/
def receiveHandshake (mail : MailCrypto) (privateKey : Curve25519Key)
    (prologue message : Bytes) : Except NoiseError (Bytes × NoiseProtocol.CipherState) :=
  runHandshake mail.crypto .senderKeyTransmittedV2 .responder
    (setupHandshake privateKey.encoded prologue message)

/-- A new cipher of the packets. -/
def packetCipher (mail : MailCrypto) (key : Bytes) (nonce : Nat) : NoiseProtocol.CipherState where
  algorithm := mail.crypto.aesGcm.algorithm
  key := some key
  nonce := nonce

theorem sendHandshake_agrees (mail : MailCrypto) (destination sender : Curve25519Key)
    (random prologue payload : Bytes) :
    ∃ message key,
      sendHandshake mail destination sender random prologue payload =
        .ok (message, packetCipher mail key 0) ∧
      message.length = 96 + payload.length ∧
      ∀ privateKey, destination = curve25519PublicKey mail privateKey →
        receiveHandshake mail privateKey prologue message =
          .ok ((curve25519PublicKey mail sender).encoded, packetCipher mail key 0) := by
  obtain ⟨symmetric, built, cipher⟩ : ∃ symmetric,
      SymmetricState.new mail.crypto (MailProtocol.senderKeyTransmittedV2).noiseProtocolName
        "AESGCM" "SHA256" = .ok symmetric ∧
      symmetric.cipher.algorithm = mail.crypto.aesGcm.algorithm := ⟨_, rfl, rfl⟩
  obtain ⟨dest, dest_eq⟩ : ∃ dest,
      (DHState.new mail.crypto.curve25519).setPublicKey destination.encoded = dest := ⟨_, rfl⟩
  obtain ⟨message⟩ := exists_xMessage mail
    ((symmetric.mixHash prologue).mixHash dest.publicKey)
    ((DHState.new mail.crypto.curve25519).setPrivateKey sender.encoded) dest
    ((DHState.new mail.crypto.curve25519).generateKeyPair random) payload rfl
    (DHState.setPrivateKey_isKeyPair _ _)
  have algorithm : message.final.cipher.algorithm = mail.crypto.aesGcm.algorithm :=
    message.final_cipher.trans cipher
  have length : ((DHState.new mail.crypto.curve25519).generateKeyPair random).publicKey.length =
      32 := (mail.crypto.curve25519.eval_length _ _).trans mail.keyLength
  refine ⟨((DHState.new mail.crypto.curve25519).generateKeyPair random).publicKey ++
      (message.key ++ message.body), sendingKey message.final, ?_, ?_,
    fun privateKey matching => ?_⟩
  · rw [sendHandshake, runHandshake, new_freshX mail symmetric built, packetCipher, ← algorithm]
    subst dest_eq
    exact handshake_x rfl message
  · rw [List.length_append, List.length_append, length, message.key_length, message.body_length]
    omega
  · have same : dest.publicKey =
        ((DHState.new mail.crypto.curve25519).setPrivateKey privateKey.encoded).publicKey := by
      rw [← dest_eq, matching]
      exact List.take_of_length_le
        ((curve25519PublicKey mail privateKey).size.trans mail.keyLength.symm).le
    rw [receiveHandshake, runHandshake, new_freshX mail symmetric built, packetCipher, ← algorithm]
    exact setupHandshake_x cipher rfl (DHState.setPrivateKey_isKeyPair _ _) same rfl message

theorem sendHandshake_ok (mail : MailCrypto) (destination sender : Curve25519Key)
    (random prologue payload : Bytes) :
    ∃ sent, sendHandshake mail destination sender random prologue payload = .ok sent := by
  obtain ⟨message, key, sent, _⟩ :=
    sendHandshake_agrees mail destination sender random prologue payload
  exact ⟨_, sent⟩

/-- Which exceptions the stream tells apart. -/
def handshakeError : NoiseError → HandshakeError
  | .badTag => .badTag
  | _ => .other

/-- The handshake and the packets as the classes compute them.  A sender's key of another length
would be refused by `Curve25519PublicKey`. -/
def noiseX (mail : MailCrypto) : Noise where
  PrivateKey := Curve25519Key
  PublicKey := Curve25519Key
  Ephemeral := Bytes
  CipherKey := Bytes
  publicKey := curve25519PublicKey mail
  writeMessage destination sender random prologue payload :=
    let sent := valueOf (sendHandshake mail destination sender random prologue payload)
      (sendHandshake_ok mail destination sender random prologue payload)
    (sent.1, sent.2.key.getD [])
  readMessage privateKey prologue message :=
    match receiveHandshake mail privateKey prologue message with
    | .error e => .error (handshakeError e)
    | .ok (sender, cipher) =>
        if size : sender.length = 32 then .ok (⟨sender, size⟩, cipher.key.getD [])
        else .error .other
  encrypt key nonce plaintext := mail.crypto.aesGcm.algorithm.encrypt key nonce none plaintext
  decrypt key nonce ciphertext := mail.crypto.aesGcm.algorithm.decrypt key nonce none ciphertext
  writeMessage_length destination sender random prologue payload := by
    obtain ⟨message, key, sent, length, _⟩ :=
      sendHandshake_agrees mail destination sender random prologue payload
    simp only [valueOf_eq sent]
    exact length
  encrypt_length key nonce plaintext :=
    mail.crypto.aesGcm.algorithm.encrypt_length key nonce none plaintext
  decrypt_length key nonce ciphertext plaintext opened :=
    mail.crypto.aesGcm.algorithm.decrypt_length key nonce none ciphertext plaintext opened

theorem noiseX_decrypts (mail : MailCrypto) : Decrypts (noiseX mail) := fun key nonce plaintext =>
  mail.decrypts.algorithm key nonce none plaintext

theorem noiseX_agrees (mail : MailCrypto) (privateKey sender : Curve25519Key) (random : Bytes) :
    @HandshakeAgrees (noiseX mail) (curve25519PublicKey mail privateKey) sender random
      privateKey := by
  intro prologue
  obtain ⟨message, key, sent, _, received⟩ :=
    sendHandshake_agrees mail (curve25519PublicKey mail privateKey) sender random prologue [0]
  have read := received privateKey rfl
  simp only [noiseX, valueOf_eq sent, read]
  rw [dif_pos (curve25519PublicKey mail sender).size]

/-! ## Packets -/

/-- The cipher of a stream as the object that the handshake ends with. -/
def packetState (mail : MailCrypto) (cipher : CipherState (noiseX mail)) :
    NoiseProtocol.CipherState :=
  packetCipher mail cipher.key cipher.nonce

theorem encryptWithAd_noiseX {mail : MailCrypto} (cipher : CipherState (noiseX mail))
    {plaintext : Bytes} {space : Nat} (room : plaintext.length + 16 ≤ space) :
    NoiseProtocol.CipherState.encryptWithAd none plaintext space (packetState mail cipher) =
      match cipher.encryptWithAd plaintext with
      | none =>
          (.error (.illegalState mail.crypto.aesGcm.algorithm.exhausted), packetState mail cipher)
      | some (ciphertext, after) => (.ok ciphertext, packetState mail after) := by
  have enough : ¬(space < 16 ∨ plaintext.length > space - 16) := by omega
  have sent : NoiseProtocol.CipherState.encryptWithAd none plaintext space
      (packetState mail cipher) =
      if space < 16 ∨ plaintext.length > space - 16 then
        (.error .shortBuffer, packetState mail cipher)
      else if cipher.nonce = lastNonce then
        (.error (.illegalState mail.crypto.aesGcm.algorithm.exhausted), packetState mail cipher)
      else
        (.ok (mail.crypto.aesGcm.algorithm.encrypt cipher.key cipher.nonce none plaintext),
          packetState mail ⟨cipher.key, cipher.nonce + 1⟩) :=
    NoiseProtocol.CipherState.encryptWithAd_eq rfl none space plaintext
  rw [sent, if_neg enough]
  by_cases last : cipher.nonce = lastNonce
  · rw [if_pos last, CipherState.encryptWithAd, if_pos last]
  · rw [if_neg last, CipherState.encryptWithAd, if_neg last]
    rfl

theorem decryptWithAd_noiseX {mail : MailCrypto} (cipher : CipherState (noiseX mail))
    {ciphertext : Bytes} {space : Nat} (tagged : macLength ≤ ciphertext.length)
    (room : ciphertext.length ≤ space + macLength) :
    let ran := NoiseProtocol.CipherState.decryptWithAd none ciphertext space
      (packetState mail cipher)
    ran.1.toOption = (cipher.decryptWithAd ciphertext).1 ∧
      ran.2 = packetState mail (cipher.decryptWithAd ciphertext).2 := by
  rw [macLength_eq] at tagged room
  have long : ¬ciphertext.length < 16 := by omega
  have enough : ¬ciphertext.length - 16 > space := by omega
  have opened : NoiseProtocol.CipherState.decryptWithAd none ciphertext space
      (packetState mail cipher) =
      if cipher.nonce = lastNonce then
        (.error (.illegalState mail.crypto.aesGcm.algorithm.exhausted), packetState mail cipher)
      else
        ((mail.crypto.aesGcm.algorithm.decrypt cipher.key cipher.nonce none ciphertext).elim
            (.error .badTag) .ok, packetState mail ⟨cipher.key, cipher.nonce + 1⟩) :=
    NoiseProtocol.CipherState.decryptWithAd_keyed rfl long enough
  rw [opened]
  by_cases last : cipher.nonce = lastNonce
  · rw [if_pos last, CipherState.decryptWithAd, if_pos last]
    exact ⟨rfl, rfl⟩
  · rw [if_neg last, CipherState.decryptWithAd, if_neg last]
    show _ = mail.crypto.aesGcm.algorithm.decrypt cipher.key cipher.nonce none ciphertext ∧ _
    cases mail.crypto.aesGcm.algorithm.decrypt cipher.key cipher.nonce none ciphertext <;>
      exact ⟨rfl, rfl⟩

/-! ## Mail -/

open MailDecryptingStream in
/-- A mail that fits its size fields and the output buffer is written, and the holder of the
destination's private key reads what was sent, and from whom. -/
theorem decryptMail_encryptMail (mail : MailCrypto) (privateKey sender : Curve25519Key)
    (random : Bytes) {maxArrayLength : Nat} {header : EnclaveMailHeaderImpl} {minSize : Nat}
    {body : Bytes} {privateHeader : Option Bytes} (minSizeRange : minSize < 2 ^ 31)
    (arrayRange : maxArrayLength < 2 ^ 31) (prologueFits : prologueSize header < 65536)
    (producible : Producible maxArrayLength header minSize body privateHeader) :
    ∃ bytes, @encryptMail (noiseX mail) (curve25519PublicKey mail privateKey) sender random
        maxArrayLength header minSize body privateHeader = .ok bytes ∧
      ∀ isKdsKey, ∃ after, @decryptMail (noiseX mail) privateKey isKdsKey (new bytes none) =
        (.ok {
          sequenceNumber := header.sequenceNumber
          topic := header.topic
          authenticatedSender := curve25519PublicKey mail sender
          envelope := emptyToNull header.envelope
          privateHeader := emptyToNull privateHeader
          bodyAsBytes := body
          kdsPrivateKey := if isKdsKey then some privateKey else none }, after) := by
  have topicFits : (encodeUtf header.topic).length ≤ 65535 := by
    unfold prologueSize at prologueFits
    omega
  have headerFits : (privateHeader.getD []).length < 2 ^ 31 := by
    have room := producible.2.2
    unfold mailSize framesSize totalPayload flushedPayload at room
    rw [plainBytes_length] at room
    omega
  obtain ⟨bytes, run⟩ := (@encryptMail_ok_iff (noiseX mail) maxArrayLength header minSize
    (curve25519PublicKey mail privateKey) sender random body privateHeader minSizeRange arrayRange
    topicFits).mpr producible
  refine ⟨bytes, run, fun isKdsKey => ?_⟩
  obtain ⟨_, _, sent, inner, rfl⟩ := encryptMail_ok run
  obtain ⟨layout⟩ := encrypt_layout inner
  rw [written_wholeBody] at layout
  exact decryptMail_mail layout (Int.natCast_nonneg _) headerFits prologueFits
    (noiseX_agrees mail privateKey sender random layout.prologue)
    (fun _ _ _ => noiseX_decrypts mail _ _ _) isKdsKey

/-! ## A small provider -/

/-- Keys whose second byte is multiplied, and whose first byte is never null. -/
def samplePoint (key : Bytes) (point : Option Bytes) : Bytes :=
  1 :: List.replicate 31 (key.getD 1 0 * (point.getD [1, 3]).getD 1 0)

theorem samplePoint_length (key : Bytes) (point : Option Bytes) :
    (samplePoint key point).length = 32 := by
  rw [samplePoint, List.length_cons, List.length_replicate]

def sampleMailCrypto : MailCrypto where
  crypto :=
    { sampleCrypto with
      curve25519 :=
        { name := "25519", keyLength := 32, eval := samplePoint,
          eval_length := samplePoint_length } }
  keyLength := rfl
  commutes first second := by
    show samplePoint first (some (samplePoint second none)) =
      samplePoint second (some (samplePoint first none))
    simp only [samplePoint, Option.getD_some, Option.getD_none, List.getD_cons_succ,
      List.replicate_succ, List.getD_cons_zero]
    rw [← UInt8.mul_assoc, ← UInt8.mul_assoc, UInt8.mul_comm (first.getD 1 0)]
  regular random := rfl
  decrypts := sampleAes_decrypts

open MailDecryptingStream in
theorem decryptMail_encryptMail_smallMail :
    ∃ bytes, @encryptMail (noiseX sampleMailCrypto)
        (curve25519PublicKey sampleMailCrypto ⟨List.replicate 32 5, rfl⟩)
        (⟨List.replicate 32 7, rfl⟩ : Curve25519Key) ([9] : Bytes) 1000
        ⟨7, [116], some [1, 2], none⟩ (5 : Nat) [3, 4] (some []) = .ok bytes ∧
      ∀ isKdsKey, ∃ after, @decryptMail (noiseX sampleMailCrypto)
          (⟨List.replicate 32 5, rfl⟩ : Curve25519Key) isKdsKey (new bytes none) =
        (.ok {
          sequenceNumber := 7
          topic := [116]
          authenticatedSender :=
            curve25519PublicKey sampleMailCrypto ⟨List.replicate 32 7, rfl⟩
          envelope := some [1, 2]
          privateHeader := none
          bodyAsBytes := [3, 4]
          kdsPrivateKey := if isKdsKey then some ⟨List.replicate 32 5, rfl⟩ else none }, after) :=
  decryptMail_encryptMail sampleMailCrypto ⟨List.replicate 32 5, rfl⟩ ⟨List.replicate 32 7, rfl⟩
    [9] (by decide) (by decide) (by decide) (by decide)

end Conclave.Mail
