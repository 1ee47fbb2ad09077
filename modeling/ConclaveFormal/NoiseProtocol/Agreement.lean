import ConclaveFormal.NoiseProtocol.Readiness

/-!
# Two sides of one handshake

`Linked` relates the two sides between two tokens: they share their symmetric
state and their place in the pattern, and each has the public halves of the keys
the other has sent.  Writing a token on one side and reading it on the other
keeps the relation, and so does a whole message.
-/

set_option autoImplicit false

namespace Conclave.NoiseProtocol

open Conclave.Lib Attempt Pattern

/-- The curves of the three keys; static and ephemeral keys are mixed with each other. -/
structure Suite where
  algorithm : KeySlot → DHAlgorithm
  commutes : ∀ slot, (algorithm slot).Commutes
  regular : algorithm .static = algorithm .ephemeral

theorem Suite.mixed (suite : Suite) {token : Token} {first second : KeySlot}
    (pair : token.mixed = some (first, second)) :
    suite.algorithm second = suite.algorithm first := by
  cases token <;> simp only [Token.mixed, Option.some.injEq, Prod.mk.injEq, reduceCtorEq] at pair
  all_goals
    obtain ⟨rfl, rfl⟩ := pair
    first
      | rfl
      | exact suite.regular
      | exact suite.regular.symm

namespace HandshakeState

def localKey (state : HandshakeState) : KeySlot → Option DHState
  | .static => state.localKeyPair
  | .ephemeral => state.localEphemeral
  | .hybrid => state.localHybrid

def remoteKey (state : HandshakeState) : KeySlot → Option DHState
  | .static => state.remotePublicKey
  | .ephemeral => state.remoteEphemeral
  | .hybrid => state.remoteHybrid

theorem localKey_setSymmetric (symmetric : SymmetricState) (state : HandshakeState) :
    (setSymmetric symmetric state).localKey = state.localKey := by
  funext slot
  cases slot <;> rfl

theorem remoteKey_setSymmetric (symmetric : SymmetricState) (state : HandshakeState) :
    (setSymmetric symmetric state).remoteKey = state.remoteKey := by
  funext slot
  cases slot <;> rfl

theorem mixToken_eq {token : Token} {first second : KeySlot}
    (pair : token.mixed = some (first, second)) (state : HandshakeState) :
    mixToken token state =
      mixDH (state.localKey (if state.isInitiator then first else second))
        (state.remoteKey (if state.isInitiator then second else first)) state := by
  cases token <;> simp only [Token.mixed, Option.some.injEq, Prod.mk.injEq, reduceCtorEq] at pair
  all_goals
    obtain ⟨rfl, rfl⟩ := pair
    rw [mixToken, get_bind]
    cases state.isInitiator <;> rfl

end HandshakeState

open HandshakeState

/-! ## The relation -/

variable {suite : Suite} {known : Known}

/-- One key pair, as its owner and as the other side has it. -/
structure Copies (suite : Suite) (slot : KeySlot) (owner peer : HandshakeState)
    (own seen : DHState) : Prop where
  held : owner.localKey slot = some own
  copied : peer.remoteKey slot = some seen
  algorithm : own.algorithm = suite.algorithm slot
  algorithm' : seen.algorithm = suite.algorithm slot

/-- What `peer` has of the keys of `owner`. -/
structure Shows (suite : Suite) (known : Known) (owner peer : HandshakeState) : Prop where
  owned : ∀ slot, owns owner.pattern.flags owner.isInitiator slot = true →
    ∃ own seen, Copies suite slot owner peer own seen ∧ (slot = .static → own.IsKeyPair)
  sent : ∀ slot, (owner.isInitiator, slot) ∈ known →
    ∃ own seen, Copies suite slot owner peer own seen ∧ own.IsKeyPair ∧
      seen.publicKey = own.publicKey

structure Linked (suite : Suite) (known : Known) (first second : HandshakeState) : Prop where
  symmetric : second.symmetric = first.symmetric
  role : second.isInitiator = !first.isInitiator
  pattern : second.pattern = first.pattern
  index : second.patternIndex = first.patternIndex
  psk : second.preSharedKey = first.preSharedKey
  shows : Shows suite known first second
  shown : Shows suite known second first

/-- What a token leaves alone. -/
structure Keeps (state after : HandshakeState) : Prop where
  isInitiator : after.isInitiator = state.isInitiator
  pattern : after.pattern = state.pattern
  patternIndex : after.patternIndex = state.patternIndex
  preSharedKey : after.preSharedKey = state.preSharedKey
  action : after.action = state.action

theorem Keeps.refl (state : HandshakeState) : Keeps state state := ⟨rfl, rfl, rfl, rfl, rfl⟩

theorem Linked.swap {first second : HandshakeState} (linked : Linked suite known first second) :
    Linked suite known second first where
  symmetric := linked.symmetric.symm
  role := by rw [linked.role, Bool.not_not]
  pattern := linked.pattern.symm
  index := linked.index.symm
  psk := linked.psk.symm
  shows := linked.shown
  shown := linked.shows

/-- The keys are all that counts. -/
theorem Shows.congr {owner peer owner' peer' : HandshakeState}
    (shows : Shows suite known owner peer) (role : owner'.isInitiator = owner.isInitiator)
    (pattern : owner'.pattern = owner.pattern) (same : owner'.localKey = owner.localKey)
    (same' : peer'.remoteKey = peer.remoteKey) : Shows suite known owner' peer' := by
  have copies {slot : KeySlot} {own seen : DHState} (old : Copies suite slot owner peer own seen) :
      Copies suite slot owner' peer' own seen :=
    ⟨by rw [same]; exact old.held, by rw [same']; exact old.copied, old.algorithm, old.algorithm'⟩
  constructor
  · intro slot owned
    rw [pattern, role] at owned
    obtain ⟨own, seen, old, static⟩ := shows.owned slot owned
    exact ⟨own, seen, copies old, static⟩
  · intro slot sent
    rw [role] at sent
    obtain ⟨own, seen, old, rest⟩ := shows.sent slot sent
    exact ⟨own, seen, copies old, rest⟩

/-- A key of the other side is nothing this side has to show. -/
theorem Shows.other {owner peer : HandshakeState} (shows : Shows suite known owner peer)
    (slot : KeySlot) :
    Shows suite ((!owner.isInitiator, slot) :: known) owner peer := by
  refine ⟨shows.owned, fun slot sent => ?_⟩
  rcases List.mem_cons.mp sent with impossible | sent
  · simp at impossible
  · exact shows.sent slot sent

/-- One key has been sent, the others are as they were. -/
theorem Shows.send {owner peer owner' peer' : HandshakeState} {slot : KeySlot} {own seen : DHState}
    (shows : Shows suite known owner peer) (keeps : Keeps owner owner')
    (copies : Copies suite slot owner' peer' own seen) (pair : own.IsKeyPair)
    (copied : seen.publicKey = own.publicKey)
    (same : ∀ other, other ≠ slot → owner'.localKey other = owner.localKey other)
    (same' : ∀ other, other ≠ slot → peer'.remoteKey other = peer.remoteKey other) :
    Shows suite ((owner.isInitiator, slot) :: known) owner' peer' := by
  have others {other : KeySlot} (different : other ≠ slot) {own seen : DHState}
      (old : Copies suite other owner peer own seen) : Copies suite other owner' peer' own seen :=
    ⟨by rw [same other different]; exact old.held, by rw [same' other different]; exact old.copied,
      old.algorithm, old.algorithm'⟩
  constructor
  · intro other owned
    rw [keeps.pattern, keeps.isInitiator] at owned
    by_cases equal : other = slot
    · subst equal
      exact ⟨own, seen, copies, fun _ => pair⟩
    · obtain ⟨own', seen', old, static⟩ := shows.owned other owned
      exact ⟨own', seen', others equal old, static⟩
  · intro other sent
    rw [keeps.isInitiator] at sent
    by_cases equal : other = slot
    · subst equal
      exact ⟨own, seen, copies, pair, copied⟩
    · rcases List.mem_cons.mp sent with same | sent
      · exact absurd (Prod.mk.inj same).2 equal
      · obtain ⟨own', seen', old, rest⟩ := shows.sent other sent
        exact ⟨own', seen', others equal old, rest⟩

/-! ## Mixing a shared secret -/

theorem mixDH_eq {localKey remoteKey : DHState} {shared : Bytes} (state : HandshakeState)
    (calculated : localKey.calculate remoteKey = .ok shared) :
    mixDH (some localKey) (some remoteKey) state =
      (.ok (), setSymmetric (state.symmetric.mixKey shared) state) := by
  simp only [mixDH, calculated]
  rfl

/-- Once both keys have been exchanged, both sides mix the same secret. -/
theorem mixToken_initiator {token : Token} {first second : KeySlot}
    (pair : token.mixed = some (first, second)) {initiator responder : HandshakeState}
    (linked : Linked suite known initiator responder) (role : initiator.isInitiator = true)
    (sent : (true, first) ∈ known) (sent' : (false, second) ∈ known) :
    ∃ shared,
      mixToken token initiator =
        (.ok (), setSymmetric (initiator.symmetric.mixKey shared) initiator) ∧
      mixToken token responder =
        (.ok (), setSymmetric (responder.symmetric.mixKey shared) responder) := by
  have role' : responder.isInitiator = false := by rw [linked.role, role]; rfl
  obtain ⟨own, seen, copies, keyPair, copied⟩ := linked.shows.sent first (by rw [role]; exact sent)
  obtain ⟨own', seen', copies', keyPair', copied'⟩ :=
    linked.shown.sent second (by rw [role']; exact sent')
  have curve := suite.mixed pair
  have equal : own.calculate seen' = own'.calculate seen := by
    refine DHState.calculate_comm (by rw [copies.algorithm]; exact suite.commutes first) ?_ keyPair
      keyPair' ?_ ?_ copied copied'
    · rw [copies'.algorithm, copies.algorithm, curve]
    · rw [copies.algorithm', copies.algorithm]
    · rw [copies'.algorithm', copies.algorithm, curve]
  have calculated : own.calculate seen' = .ok (own.algorithm.eval own.privateKey
      (some seen'.publicKey)) := by
    simp only [DHState.calculate, copies'.algorithm', copies.algorithm, curve, ne_eq,
      not_true, if_false]
  refine ⟨own.algorithm.eval own.privateKey (some seen'.publicKey), ?_, ?_⟩
  · rw [mixToken_eq pair, role, if_pos rfl, if_pos rfl, copies.held, copies'.copied]
    exact mixDH_eq initiator calculated
  · rw [mixToken_eq pair, role', if_neg Bool.false_ne_true, if_neg Bool.false_ne_true,
      copies'.held, copies.copied]
    exact mixDH_eq responder (equal.symm.trans calculated)

theorem mixToken_agrees {token : Token} {first second : KeySlot}
    (pair : token.mixed = some (first, second)) {writer reader : HandshakeState}
    (linked : Linked suite known writer reader) (sent : (true, first) ∈ known)
    (sent' : (false, second) ∈ known) :
    ∃ shared,
      mixToken token writer = (.ok (), setSymmetric (writer.symmetric.mixKey shared) writer) ∧
      mixToken token reader = (.ok (), setSymmetric (reader.symmetric.mixKey shared) reader) := by
  cases role : writer.isInitiator with
  | true => exact mixToken_initiator pair linked role sent sent'
  | false =>
      obtain ⟨shared, first, second⟩ := mixToken_initiator pair linked.swap
        (by rw [linked.role, role]; rfl) sent sent'
      exact ⟨shared, second, first⟩

/-- Changing the common symmetric state on both sides keeps them linked. -/
theorem Linked.setSymmetric {first second : HandshakeState} (symmetric : SymmetricState)
    (linked : Linked suite known first second) :
    Linked suite known (setSymmetric symmetric first) (setSymmetric symmetric second) where
  symmetric := rfl
  role := linked.role
  pattern := linked.pattern
  index := linked.index
  psk := linked.psk
  shows := linked.shows.congr rfl rfl (localKey_setSymmetric _ _) (remoteKey_setSymmetric _ _)
  shown := linked.shown.congr rfl rfl (localKey_setSymmetric _ _) (remoteKey_setSymmetric _ _)

/-! ## Sending a key -/

theorem getMACLength_le (symmetric : SymmetricState) : symmetric.getMACLength ≤ 16 := by
  rw [SymmetricState.getMACLength, CipherState.getMACLength]
  split <;> omega

/-- An encrypted public key is read as it was sent. -/
theorem readPublicKey_sent {reader : HandshakeState} {seen : DHState} {key chunk : Bytes}
    {symmetric : SymmetricState} {space : Nat}
    (decrypts : reader.symmetric.cipher.algorithm.Decrypts)
    (ran : SymmetricState.encryptAndHash key space reader.symmetric = (.ok chunk, symmetric))
    (chunkLength : chunk.length = key.length + reader.symmetric.getMACLength)
    (length : key.length = seen.algorithm.keyLength) (rest : Bytes) :
    readPublicKey seen (chunk ++ rest) reader =
      (.ok (seen.setPublicKey key, rest), setSymmetric symmetric reader) := by
  have opened := SymmetricState.decryptAndHash_of_encryptAndHash decrypts ran length.le
  have size : seen.algorithm.keyLength + reader.symmetric.getMACLength = chunk.length := by
    rw [chunkLength, length]
  have enough : ¬(chunk ++ rest).length < chunk.length := by
    rw [List.length_append]
    omega
  rw [readPublicKey, get_bind, size, if_neg enough, List.take_left, List.drop_left,
    decryptAndHash, bind_ok (within_eq HandshakeState.symmetric setSymmetric opened)]
  simp only [length, ne_eq, not_true, if_false]
  rfl

/-- A public key arrives as it was sent, and both sides have hashed what was sent. -/
theorem sendKey_agrees {writer reader : HandshakeState} {own seen : DHState} {dh : DHAlgorithm}
    {space : Nat} (same : reader.symmetric = writer.symmetric)
    (decrypts : writer.symmetric.cipher.algorithm.Decrypts) (algorithm : seen.algorithm = dh)
    (length : own.publicKey.length = dh.keyLength)
    (unused : writer.symmetric.cipher.nonce ≠ lastNonce) (room : dh.keyLength + 16 ≤ space) :
    ∃ chunk symmetric,
      encryptAndHash own.publicKey space writer = (.ok chunk, setSymmetric symmetric writer) ∧
      chunk.length ≤ dh.keyLength + 16 ∧
      symmetric.cipher.algorithm = writer.symmetric.cipher.algorithm ∧
      symmetric.cipher.nonce ≤ writer.symmetric.cipher.nonce + 1 ∧
      ∀ rest, readPublicKey seen (chunk ++ rest) reader =
        (.ok (seen.setPublicKey own.publicKey, rest), setSymmetric symmetric reader) := by
  have tag := getMACLength_le writer.symmetric
  obtain ⟨chunk, symmetric, ran, chunkLength, cipher, _, nonce⟩ :=
    SymmetricState.encryptAndHash_progress writer.symmetric own.publicKey space (by omega) unused
  refine ⟨chunk, symmetric, within_eq HandshakeState.symmetric setSymmetric ran, by omega, cipher,
    nonce, ?_⟩
  rw [← same] at ran chunkLength decrypts
  exact readPublicKey_sent decrypts ran chunkLength (by rw [length, algorithm])

/-- What a token needs of the place it is at, and the keys that are known after it. -/
def Token.Ready (flags : UInt16) (writer : Bool) (known next : Known) (token : Token) : Prop :=
  (∃ slot, token.sent = some slot ∧ owns flags writer slot = true ∧
      next = (writer, slot) :: known) ∨
    ∃ first second, token.mixed = some (first, second) ∧ (true, first) ∈ known ∧
      (false, second) ∈ known ∧ next = known

/-- Both sides have got past a token. -/
structure Advanced (suite : Suite) (known : Known)
    (writer writer' reader reader' : HandshakeState) : Prop where
  linked : Linked suite known writer' reader'
  writerKeeps : Keeps writer writer'
  readerKeeps : Keeps reader reader'
  nonce : writer'.symmetric.cipher.nonce ≤ writer.symmetric.cipher.nonce + 1
  algorithm : writer'.symmetric.cipher.algorithm = writer.symmetric.cipher.algorithm

/-- The key that has been sent is the only one that has changed. -/
theorem Advanced.of_sent {writer writer' reader reader' : HandshakeState} {slot : KeySlot}
    {own seen : DHState} (linked : Linked suite known writer reader)
    (writerKeeps : Keeps writer writer') (readerKeeps : Keeps reader reader')
    (same : reader'.symmetric = writer'.symmetric)
    (copies : Copies suite slot writer' reader' own seen) (pair : own.IsKeyPair)
    (copied : seen.publicKey = own.publicKey)
    (others : ∀ other, other ≠ slot → writer'.localKey other = writer.localKey other)
    (others' : ∀ other, other ≠ slot → reader'.remoteKey other = reader.remoteKey other)
    (unchanged : writer'.remoteKey = writer.remoteKey)
    (unchanged' : reader'.localKey = reader.localKey)
    (nonce : writer'.symmetric.cipher.nonce ≤ writer.symmetric.cipher.nonce + 1)
    (algorithm : writer'.symmetric.cipher.algorithm = writer.symmetric.cipher.algorithm) :
    Advanced suite ((writer.isInitiator, slot) :: known) writer writer' reader reader' where
  linked :=
    { symmetric := same
      role := by rw [writerKeeps.isInitiator, readerKeeps.isInitiator, linked.role]
      pattern := by rw [writerKeeps.pattern, readerKeeps.pattern, linked.pattern]
      index := by rw [writerKeeps.patternIndex, readerKeeps.patternIndex, linked.index]
      psk := by rw [writerKeeps.preSharedKey, readerKeeps.preSharedKey, linked.psk]
      shows := linked.shows.send writerKeeps copies pair copied others others'
      shown := by
        have shown := linked.shown.other slot
        rw [linked.role, Bool.not_not] at shown
        exact shown.congr readerKeeps.isInitiator readerKeeps.pattern unchanged' unchanged }
  writerKeeps := writerKeeps
  readerKeeps := readerKeeps
  nonce := nonce
  algorithm := algorithm

/-! ## One token -/

theorem writeToken_mixed {token : Token} {pair : KeySlot × KeySlot}
    (mixes : token.mixed = some pair) (random : Bytes) (space : Nat) (state : HandshakeState) :
    writeToken random space token state = (mixToken token >>= fun _ => pure []) state := by
  cases token <;> first | rfl | cases mixes

theorem readToken_mixed {token : Token} {pair : KeySlot × KeySlot} (mixes : token.mixed = some pair)
    (message : Bytes) (state : HandshakeState) :
    readToken message token state = (mixToken token >>= fun _ => pure message) state := by
  cases token <;> first | rfl | cases mixes

theorem mixedToken_agrees {token : Token} {first second : KeySlot}
    (pair : token.mixed = some (first, second)) {writer reader : HandshakeState}
    (linked : Linked suite known writer reader) (sent : (true, first) ∈ known)
    (sent' : (false, second) ∈ known) (random : Bytes) (space : Nat) :
    ∃ writer' reader', writeToken random space token writer = (.ok [], writer') ∧
      (∀ rest, readToken rest token reader = (.ok rest, reader')) ∧
      Advanced suite known writer writer' reader reader' := by
  obtain ⟨shared, ran, ran'⟩ := mixToken_agrees pair linked sent sent'
  refine ⟨setSymmetric (writer.symmetric.mixKey shared) writer,
    setSymmetric (reader.symmetric.mixKey shared) reader, ?_, fun rest => ?_, ?_⟩
  · rw [writeToken_mixed pair, bind_ok ran]
    rfl
  · rw [readToken_mixed pair, bind_ok ran']
    rfl
  · rw [linked.symmetric]
    exact ⟨linked.setSymmetric _, ⟨rfl, rfl, rfl, rfl, rfl⟩, ⟨rfl, rfl, rfl, rfl, rfl⟩,
      Nat.zero_le _, rfl⟩

theorem writeToken_static {state after : HandshakeState} {own : DHState} {random chunk : Bytes}
    {space : Nat} (held : state.localKeyPair = some own)
    (room : own.algorithm.keyLength + state.symmetric.getMACLength ≤ space)
    (ran : encryptAndHash own.publicKey space state = (.ok chunk, after)) :
    writeToken random space .s state = (.ok chunk, after) := by
  rw [writeToken, get_bind]
  simp only [held]
  rw [if_neg (by omega)]
  exact ran

theorem readToken_static {state after : HandshakeState} {seen read : DHState}
    {message rest : Bytes} (held : state.remotePublicKey = some seen)
    (ran : readPublicKey seen message state = (.ok (read, rest), after)) :
    readToken message .s state = (.ok rest, { after with remotePublicKey := some read }) := by
  rw [readToken, get_bind]
  simp only [held]
  rw [bind_ok ran]
  rfl

theorem staticToken_agrees {writer reader : HandshakeState} {random : Bytes} {space : Nat}
    (linked : Linked suite known writer reader)
    (decrypts : writer.symmetric.cipher.algorithm.Decrypts)
    (owned : owns writer.pattern.flags writer.isInitiator .static = true)
    (room : (suite.algorithm .static).keyLength + 16 ≤ space)
    (unused : writer.symmetric.cipher.nonce ≠ lastNonce) :
    ∃ chunk writer' reader', writeToken random space .s writer = (.ok chunk, writer') ∧
      chunk.length ≤ (suite.algorithm .static).keyLength + 16 ∧
      (∀ rest, readToken (chunk ++ rest) .s reader = (.ok rest, reader')) ∧
      Advanced suite ((writer.isInitiator, .static) :: known) writer writer' reader reader' := by
  obtain ⟨own, seen, copies, keyPair⟩ := linked.shows.owned .static owned
  have pair := keyPair rfl
  have length : own.publicKey.length = (suite.algorithm .static).keyLength := by
    rw [pair.publicKey, own.algorithm.eval_length, copies.algorithm]
  obtain ⟨chunk, symmetric, ran, short, algorithm, nonce, opened⟩ :=
    sendKey_agrees linked.symmetric decrypts copies.algorithm' length unused room
  have tag := getMACLength_le writer.symmetric
  refine ⟨chunk, setSymmetric symmetric writer,
    { setSymmetric symmetric reader with
      remotePublicKey := some (seen.setPublicKey own.publicKey) },
    writeToken_static copies.held (by rw [copies.algorithm]; omega) ran, short,
    fun rest => readToken_static copies.copied (opened rest), ?_⟩
  refine Advanced.of_sent linked ⟨rfl, rfl, rfl, rfl, rfl⟩ ⟨rfl, rfl, rfl, rfl, rfl⟩ rfl
    ⟨copies.held, rfl, copies.algorithm, copies.algorithm'⟩ pair ?_ ?_ ?_ ?_ ?_ nonce algorithm
  · rw [DHState.setPublicKey]
    exact List.take_of_length_le (by rw [length, copies.algorithm'])
  · intro other _
    rw [localKey_setSymmetric]
  · intro other different
    cases other <;> first | rfl | exact absurd rfl different
  · exact remoteKey_setSymmetric _ _
  · funext slot
    cases slot <;> rfl

theorem hybridToken_agrees {writer reader : HandshakeState} {random : Bytes} {space : Nat}
    (linked : Linked suite known writer reader)
    (decrypts : writer.symmetric.cipher.algorithm.Decrypts)
    (owned : owns writer.pattern.flags writer.isInitiator .hybrid = true)
    (room : (suite.algorithm .hybrid).keyLength + 16 ≤ space)
    (unused : writer.symmetric.cipher.nonce ≠ lastNonce) :
    ∃ chunk writer' reader', writeToken random space .f writer = (.ok chunk, writer') ∧
      chunk.length ≤ (suite.algorithm .hybrid).keyLength + 16 ∧
      (∀ rest, readToken (chunk ++ rest) .f reader = (.ok rest, reader')) ∧
      Advanced suite ((writer.isInitiator, .hybrid) :: known) writer writer' reader reader' := by
  obtain ⟨own, seen, copies, _⟩ := linked.shows.owned .hybrid owned
  have pair := own.setPrivateKey_isKeyPair random
  have length : (own.generateKeyPair random).publicKey.length =
      (suite.algorithm .hybrid).keyLength := by
    rw [← copies.algorithm]
    exact own.algorithm.eval_length _ _
  obtain ⟨chunk, symmetric, ran, short, algorithm, nonce, opened⟩ :=
    @sendKey_agrees { writer with localHybrid := some (own.generateKeyPair random) } reader
      (own.generateKeyPair random) seen _ space linked.symmetric decrypts copies.algorithm' length
      unused room
  have tag := getMACLength_le writer.symmetric
  refine ⟨chunk,
    setSymmetric symmetric { writer with localHybrid := some (own.generateKeyPair random) },
    { setSymmetric symmetric reader with
      remoteHybrid := some (seen.setPublicKey (own.generateKeyPair random).publicKey) },
    ?_, short, fun rest => ?_, ?_⟩
  · have held : writer.localHybrid = some own := copies.held
    have curve : (own.generateKeyPair random).algorithm = suite.algorithm .hybrid :=
      copies.algorithm
    rw [writeToken, get_bind]
    simp only [held]
    rw [modify_bind, curve, if_neg (by omega)]
    exact ran
  · have copied : reader.remoteHybrid = some seen := copies.copied
    rw [readToken, get_bind]
    simp only [copied]
    rw [bind_ok (opened rest)]
    rfl
  · refine Advanced.of_sent linked ⟨rfl, rfl, rfl, rfl, rfl⟩ ⟨rfl, rfl, rfl, rfl, rfl⟩ rfl
      ⟨rfl, rfl, copies.algorithm, copies.algorithm'⟩ pair ?_ ?_ ?_ ?_ ?_ nonce algorithm
    · rw [DHState.setPublicKey]
      exact List.take_of_length_le (by rw [length, copies.algorithm'])
    · intro other different
      cases other <;> first | rfl | exact absurd rfl different
    · intro other different
      cases other <;> first | rfl | exact absurd rfl different
    · funext slot
      cases slot <;> rfl
    · funext slot
      cases slot <;> rfl

/-- The key that is mixed in once more for a pre-shared key. -/
def mixEphemeral (psk : Option Bytes) (key : Bytes) (symmetric : SymmetricState) :
    SymmetricState :=
  if psk.isSome then (symmetric.mixHash key).mixKey key else symmetric.mixHash key

theorem mixEphemeral_cipher (psk : Option Bytes) (key : Bytes) (symmetric : SymmetricState) :
    (mixEphemeral psk key symmetric).cipher.algorithm = symmetric.cipher.algorithm ∧
      (mixEphemeral psk key symmetric).cipher.nonce ≤ symmetric.cipher.nonce := by
  rw [mixEphemeral]
  split
  · exact ⟨rfl, Nat.zero_le _⟩
  · exact ⟨rfl, le_refl _⟩

theorem writeToken_ephemeral {state : HandshakeState} {own : DHState} {random : Bytes}
    {space : Nat} (held : state.localEphemeral = some own)
    (room : own.algorithm.keyLength ≤ space) :
    writeToken random space .e state =
      (.ok (own.generateKeyPair random).publicKey,
        setSymmetric
          (mixEphemeral state.preSharedKey (own.generateKeyPair random).publicKey state.symmetric)
          { state with localEphemeral := some (own.generateKeyPair random) }) := by
  have enough : ¬space < (own.generateKeyPair random).algorithm.keyLength := Nat.not_lt.mpr room
  rw [writeToken, get_bind]
  simp only [held]
  rw [modify_bind, if_neg enough, onSymmetric, modify_bind, mixEphemeral]
  split <;> rfl

theorem readToken_ephemeral {state : HandshakeState} {seen : DHState} {key : Bytes}
    (held : state.remoteEphemeral = some seen) (length : key.length = seen.algorithm.keyLength)
    (valid : (seen.setPublicKey key).isNullPublicKey = false) (rest : Bytes) :
    readToken (key ++ rest) .e state =
      (.ok rest,
        setSymmetric (mixEphemeral state.preSharedKey key state.symmetric)
          { state with remoteEphemeral := some (seen.setPublicKey key) }) := by
  have enough : ¬(key ++ rest).length < key.length := by
    rw [List.length_append]
    omega
  rw [readToken, get_bind]
  simp only [held]
  rw [← length, if_neg enough, List.take_left, List.drop_left, onSymmetric, modify_bind,
    modify_bind, valid, if_neg Bool.false_ne_true, mixEphemeral]
  split <;> rfl

/-- The public key of a generated key pair is not null on the other side either. -/
theorem seen_valid {own seen : DHState} {random : Bytes} (regular : own.algorithm.Regular random)
    (same : seen.algorithm = own.algorithm) :
    (seen.setPublicKey (own.generateKeyPair random).publicKey).publicKey =
        (own.generateKeyPair random).publicKey ∧
      (seen.setPublicKey (own.generateKeyPair random).publicKey).isNullPublicKey = false := by
  have length : (own.generateKeyPair random).publicKey.length = seen.algorithm.keyLength := by
    rw [same]
    exact own.algorithm.eval_length _ _
  have copied : (seen.setPublicKey (own.generateKeyPair random).publicKey).publicKey =
      (own.generateKeyPair random).publicKey := List.take_of_length_le length.le
  refine ⟨copied, ?_⟩
  rw [DHState.isNullPublicKey, copied]
  show (_ && (own.algorithm.eval (random.take own.algorithm.keyLength) none).all _) = false
  rw [regular, Bool.and_false]

theorem ephemeralToken_agrees {writer reader : HandshakeState} {random : Bytes} {space : Nat}
    (linked : Linked suite known writer reader)
    (owned : owns writer.pattern.flags writer.isInitiator .ephemeral = true)
    (room : (suite.algorithm .ephemeral).keyLength + 16 ≤ space)
    (nonnull : (suite.algorithm .ephemeral).Regular random) :
    ∃ chunk writer' reader', writeToken random space .e writer = (.ok chunk, writer') ∧
      chunk.length ≤ (suite.algorithm .ephemeral).keyLength + 16 ∧
      (∀ rest, readToken (chunk ++ rest) .e reader = (.ok rest, reader')) ∧
      Advanced suite ((writer.isInitiator, .ephemeral) :: known) writer writer' reader reader' := by
  obtain ⟨own, seen, copies, _⟩ := linked.shows.owned .ephemeral owned
  have pair := own.setPrivateKey_isKeyPair random
  have same : seen.algorithm = own.algorithm := copies.algorithm'.trans copies.algorithm.symm
  rw [← copies.algorithm] at nonnull room ⊢
  have length : (own.generateKeyPair random).publicKey.length = own.algorithm.keyLength :=
    own.algorithm.eval_length _ _
  obtain ⟨copied, valid⟩ := seen_valid nonnull same
  obtain ⟨key, key_eq⟩ : ∃ key, (own.generateKeyPair random).publicKey = key := ⟨_, rfl⟩
  rw [key_eq] at length copied valid
  have cipher := mixEphemeral_cipher writer.preSharedKey key writer.symmetric
  refine ⟨key,
    setSymmetric (mixEphemeral writer.preSharedKey key writer.symmetric)
      { writer with localEphemeral := some (own.generateKeyPair random) },
    setSymmetric (mixEphemeral writer.preSharedKey key writer.symmetric)
      { reader with remoteEphemeral := some (seen.setPublicKey key) },
    ?_, length.le.trans (Nat.le_add_right _ _), fun rest => ?_, ?_⟩
  · rw [writeToken_ephemeral copies.held (by omega), key_eq]
  · rw [readToken_ephemeral copies.copied (by rw [length, same]) valid rest, linked.psk,
      linked.symmetric]
  · refine Advanced.of_sent linked ⟨rfl, rfl, rfl, rfl, rfl⟩ ⟨rfl, rfl, rfl, rfl, rfl⟩ rfl
      ⟨rfl, rfl, copies.algorithm, copies.algorithm'⟩ pair (copied.trans key_eq.symm) ?_ ?_ ?_ ?_
      (Nat.le_succ_of_le cipher.2) cipher.1
    · intro other different
      cases other <;> first | rfl | exact absurd rfl different
    · intro other different
      cases other <;> first | rfl | exact absurd rfl different
    · funext slot
      cases slot <;> rfl
    · funext slot
      cases slot <;> rfl

end Conclave.NoiseProtocol
