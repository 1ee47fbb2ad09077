import ConclaveFormal.Lib.Transition
import ConclaveFormal.NoiseProtocol.Conversation

/-!
# After the split

The two sides of a finished handshake exchange packets in both directions, in any order of sending
and receiving, over a network that may lose, repeat, reorder and make up packets.  If the cipher
opens with a nonce only what the sender has made with it, what a side reads is what was sent, in
order.
-/

set_option autoImplicit false

namespace Conclave.NoiseProtocol

open Conclave.Lib

/-- A packet that was sent: the nonce it was made with, the associated data, the text, and what went
onto the network. -/
structure Packet where
  nonce : Nat
  ad : Option Bytes
  plaintext : Bytes
  ciphertext : Bytes

/-- What a packet is to tell; no associated data counts as empty data. -/
def Packet.content (packet : Packet) : Bytes × Bytes := (packet.ad.getD [], packet.plaintext)

/-- One direction: the cipher of each end, the packets sent and what was read so far, and how many
packets were refused for their tag. -/
structure Direction where
  send : CipherState
  recv : CipherState
  sent : List Packet
  received : List (Bytes × Bytes)
  refused : Nat

def Direction.new (send recv : CipherState) : Direction where
  send := send
  recv := recv
  sent := []
  received := []
  refused := 0

/-- What is received is whatever the network brings: a packet that was sent, in its turn, too early,
too late or once more, or any other bytes.  A packet that it never brings is lost. -/
inductive PacketEvent where
  | send (ad : Option Bytes) (plaintext : Bytes) (space : Nat)
  | receive (ad : Option Bytes) (ciphertext : Bytes) (space : Nat)
  deriving DecidableEq, Repr

def Direction.step (direction : Direction) : PacketEvent → Direction
  | .send ad plaintext space =>
      match CipherState.encryptWithAd ad plaintext space direction.send with
      | (.error _, send) => { direction with send }
      | (.ok ciphertext, send) =>
          { direction with
            send
            sent := direction.sent ++ [⟨direction.send.nonce, ad, plaintext, ciphertext⟩] }
  | .receive ad ciphertext space =>
      match CipherState.decryptWithAd ad ciphertext space direction.recv with
      | (.error .badTag, recv) => { direction with recv, refused := direction.refused + 1 }
      | (.error _, recv) => { direction with recv }
      | (.ok plaintext, recv) =>
          { direction with recv, received := direction.received ++ [(ad.getD [], plaintext)] }

/-- Both directions. -/
structure Channel where
  forth : Direction
  back : Direction

def Channel.step (channel : Channel) : Bool × PacketEvent → Option Channel
  | (true, event) => some { channel with forth := channel.forth.step event }
  | (false, event) => some { channel with back := channel.back.step event }

/-- What the two sides of a handshake split into. -/
def Channel.new (first second : CipherStatePair) : Channel where
  forth := Direction.new first.send second.recv
  back := Direction.new second.send first.recv

/-- The cipher is not broken by this event: what it opens with the receiver's nonce is a text that
the sender has encrypted with that nonce, and for the same associated data. -/
def Direction.Unforged (direction : Direction) : PacketEvent → Prop
  | .send _ _ _ => True
  | .receive ad ciphertext _ =>
      ∀ key ∈ direction.recv.key,
        ∀ plaintext ∈ direction.recv.algorithm.decrypt key direction.recv.nonce ad ciphertext,
          ∃ packet ∈ direction.sent, packet.nonce = direction.recv.nonce ∧
            packet.content = (ad.getD [], plaintext)

instance (direction : Direction) : DecidablePred direction.Unforged
  | .send _ _ _ => isTrue trivial
  | .receive _ _ _ => inferInstanceAs (Decidable (∀ _ ∈ _, ∀ _ ∈ _, ∃ _ ∈ _, _ = _ ∧ _ = _))

def Channel.Unforged (channel : Channel) : Bool × PacketEvent → Prop
  | (true, event) => channel.forth.Unforged event
  | (false, event) => channel.back.Unforged event

instance (channel : Channel) : DecidablePred channel.Unforged
  | (true, event) => inferInstanceAs (Decidable (channel.forth.Unforged event))
  | (false, event) => inferInstanceAs (Decidable (channel.back.Unforged event))

/-- Each message is read at most once and in the order sent; while no packet was refused none is
missing in between; and the packet whose turn it is can be read whenever it comes. -/
structure Direction.InOrder (direction : Direction) : Prop where
  order : direction.received.Sublist (direction.sent.map Packet.content)
  whole : direction.refused = 0 → direction.received <+: direction.sent.map Packet.content
  next : ∀ packet, direction.sent[direction.recv.nonce]? = some packet →
    ∀ space, packet.plaintext.length ≤ space →
      (CipherState.decryptWithAd packet.ad packet.ciphertext space direction.recv).1 =
        .ok packet.plaintext

/-! ## One call -/

namespace CipherState

variable {state after : CipherState} {key : Bytes} {ad : Option Bytes} {space : Nat}

theorem encryptWithAd_ok (keyed : state.key = some key) {plaintext ciphertext : Bytes}
    (ran : encryptWithAd ad plaintext space state = (.ok ciphertext, after)) :
    state.nonce ≠ lastNonce ∧
      ciphertext = state.algorithm.encrypt key state.nonce ad plaintext ∧
      after = { state with nonce := state.nonce + 1 } := by
  rw [encryptWithAd_eq keyed] at ran
  split at ran
  · cases ran
  · split at ran
    · cases ran
    · rename_i unused
      cases ran
      exact ⟨unused, rfl, rfl⟩

theorem encryptWithAd_error (keyed : state.key = some key) {plaintext : Bytes} {e : NoiseError}
    (ran : encryptWithAd ad plaintext space state = (.error e, after)) : after = state := by
  rw [encryptWithAd_eq keyed] at ran
  split at ran
  · cases ran
    rfl
  · split at ran
    · cases ran
      rfl
    · cases ran

theorem decryptWithAd_ok (keyed : state.key = some key) {ciphertext plaintext : Bytes}
    (ran : decryptWithAd ad ciphertext space state = (.ok plaintext, after)) :
    state.algorithm.decrypt key state.nonce ad ciphertext = some plaintext ∧
      after = { state with nonce := state.nonce + 1 } := by
  rw [decryptWithAd_eq keyed] at ran
  split at ran
  · cases ran
  · split at ran
    · cases ran
    · split at ran
      · cases ran
      · cases decrypted : state.algorithm.decrypt key state.nonce ad ciphertext with
        | none =>
            rw [decrypted] at ran
            cases ran
        | some text =>
            rw [decrypted] at ran
            cases ran
            exact ⟨rfl, rfl⟩

/-- Only a bad tag can cost a nonce. -/
theorem decryptWithAd_error (keyed : state.key = some key) {ciphertext : Bytes} {e : NoiseError}
    (ran : decryptWithAd ad ciphertext space state = (.error e, after)) :
    after = state ∨ e = .badTag ∧ after = { state with nonce := state.nonce + 1 } := by
  rw [decryptWithAd_eq keyed] at ran
  split at ran
  · cases ran
    exact Or.inl rfl
  · split at ran
    · cases ran
      exact Or.inl rfl
    · split at ran
      · cases ran
        exact Or.inl rfl
      · cases decrypted : state.algorithm.decrypt key state.nonce ad ciphertext with
        | none =>
            rw [decrypted] at ran
            cases ran
            exact Or.inr ⟨rfl, rfl⟩
        | some text =>
            rw [decrypted] at ran
            cases ran

end CipherState

/-! ## One direction -/

/-- The two ends have one key.  The packets sent are numbered; of the first of them, as many as the
receiver has used nonces, those received are some, and all if none was refused. -/
structure InStep (algorithm : CipherAlgorithm) (key : Bytes) (direction : Direction) : Prop where
  sender : direction.send = ⟨algorithm, some key, direction.sent.length⟩
  receiver : direction.recv = ⟨algorithm, some key, direction.recv.nonce⟩
  numbered : ∀ index packet, direction.sent[index]? = some packet →
    packet.nonce = index ∧ index ≠ lastNonce ∧
      packet.ciphertext = algorithm.encrypt key index packet.ad packet.plaintext
  order : direction.received.Sublist
    ((direction.sent.take direction.recv.nonce).map Packet.content)
  count : direction.recv.nonce ≤ direction.received.length + direction.refused

section Direction

variable {algorithm : CipherAlgorithm} {key : Bytes} {direction : Direction}

theorem InStep.step_send (inStep : InStep algorithm key direction) (ad : Option Bytes)
    (plaintext : Bytes) (space : Nat) :
    InStep algorithm key (direction.step (.send ad plaintext space)) := by
  have keyed : direction.send.key = some key := by rw [inStep.sender]
  cases ran : CipherState.encryptWithAd ad plaintext space direction.send with
  | mk result send =>
    cases result with
    | error e =>
        obtain rfl := CipherState.encryptWithAd_error keyed ran
        simp only [Direction.step, ran]
        exact inStep
    | ok ciphertext =>
        obtain ⟨unused, text, rfl⟩ := CipherState.encryptWithAd_ok keyed ran
        have nonce : direction.send.nonce = direction.sent.length := by rw [inStep.sender]
        have cipher : direction.send.algorithm = algorithm := by rw [inStep.sender]
        simp only [Direction.step, ran]
        refine ⟨?_, inStep.receiver, ?_, ?_, inStep.count⟩
        · rw [List.length_append, ← nonce, ← cipher, ← keyed]
          rfl
        · intro index packet found
          rw [List.getElem?_append] at found
          split at found
          · exact inStep.numbered index packet found
          · rw [List.getElem?_singleton] at found
            split at found
            · cases found
              obtain rfl : index = direction.send.nonce := by omega
              exact ⟨rfl, unused, cipher ▸ text⟩
            · cases found
        · refine inStep.order.trans (List.Sublist.map _ ?_)
          rw [List.take_append]
          exact List.sublist_append_left _ _

theorem InStep.step_receive (inStep : InStep algorithm key direction) {ad : Option Bytes}
    {ciphertext : Bytes} {space : Nat}
    (unforged : direction.Unforged (.receive ad ciphertext space)) :
    InStep algorithm key (direction.step (.receive ad ciphertext space)) := by
  have keyed : direction.recv.key = some key := by rw [inStep.receiver]
  have cipher : direction.recv.algorithm = algorithm := by rw [inStep.receiver]
  have counted : ({ direction.recv with nonce := direction.recv.nonce + 1 } : CipherState) =
      ⟨algorithm, some key, direction.recv.nonce + 1⟩ := by
    simp only [cipher, keyed]
  have longer : ((direction.sent.take direction.recv.nonce).map Packet.content).Sublist
      ((direction.sent.take (direction.recv.nonce + 1)).map Packet.content) :=
    List.Sublist.map _ (List.take_sublist_take_left (Nat.le_succ _))
  cases ran : CipherState.decryptWithAd ad ciphertext space direction.recv with
  | mk result recv =>
    cases result with
    | ok plaintext =>
        obtain ⟨decrypted, rfl⟩ := CipherState.decryptWithAd_ok keyed ran
        obtain ⟨packet, member, nonce, content⟩ := unforged key keyed plaintext decrypted
        obtain ⟨index, found⟩ := List.mem_iff_getElem?.mp member
        -- The packet made with this nonce is the one whose turn it is.
        obtain rfl : index = direction.recv.nonce :=
          (inStep.numbered index packet found).1.symm.trans nonce
        simp only [Direction.step, ran]
        refine ⟨inStep.sender, counted, inStep.numbered, ?_, ?_⟩
        · rw [List.take_add_one, found, Option.toList_some, List.map_append, List.map_singleton,
            content]
          exact inStep.order.append (List.Sublist.refl _)
        · have count := inStep.count
          show direction.recv.nonce + 1 ≤
            (direction.received ++ [(ad.getD [], plaintext)]).length + direction.refused
          rw [List.length_append, List.length_singleton]
          omega
    | error e =>
        have count := inStep.count
        rcases CipherState.decryptWithAd_error keyed ran with rfl | ⟨rfl, rfl⟩
        · cases e
          case badTag =>
            simp only [Direction.step, ran]
            exact ⟨inStep.sender, inStep.receiver, inStep.numbered, inStep.order, by
              show direction.recv.nonce ≤ direction.received.length + (direction.refused + 1)
              omega⟩
          all_goals
            simp only [Direction.step, ran]
            exact inStep
        · simp only [Direction.step, ran]
          exact ⟨inStep.sender, counted, inStep.numbered, inStep.order.trans longer, by
            show direction.recv.nonce + 1 ≤ direction.received.length + (direction.refused + 1)
            omega⟩

theorem InStep.step (inStep : InStep algorithm key direction) {event : PacketEvent}
    (unforged : direction.Unforged event) : InStep algorithm key (direction.step event) := by
  cases event with
  | send ad plaintext space => exact inStep.step_send ad plaintext space
  | receive ad ciphertext space => exact inStep.step_receive unforged

theorem InStep.new (algorithm : CipherAlgorithm) (key : Bytes) :
    InStep algorithm key (.new ⟨algorithm, some key, 0⟩ ⟨algorithm, some key, 0⟩) where
  sender := rfl
  receiver := rfl
  numbered index packet found := by
    rw [Direction.new, List.getElem?_nil] at found
    cases found
  order := List.Sublist.refl _
  count := Nat.le_refl _

theorem InStep.inOrder (decrypts : algorithm.Decrypts) (inStep : InStep algorithm key direction) :
    direction.InOrder where
  order := inStep.order.trans (List.Sublist.map _ (List.take_sublist _ _))
  whole none := by
    have count := inStep.count
    have short : ((direction.sent.take direction.recv.nonce).map Packet.content).length ≤
        direction.received.length := by
      rw [List.length_map, List.length_take]
      omega
    rw [inStep.order.eq_of_length_le short, List.map_take]
    exact List.take_prefix _ _
  next packet found space room := by
    obtain ⟨-, unused, text⟩ := inStep.numbered _ packet found
    have size := algorithm.encrypt_length key direction.recv.nonce packet.ad packet.plaintext
    rw [inStep.receiver, text, CipherState.decryptWithAd_keyed rfl (by omega) (by omega),
      if_neg unused, decrypts]
    rfl

end Direction

/-! ## Both directions -/

/-- The keys of the two directions. -/
structure ChannelInStep (algorithm : CipherAlgorithm) (keys : Bytes × Bytes) (channel : Channel) :
    Prop where
  forth : InStep algorithm keys.1 channel.forth
  back : InStep algorithm keys.2 channel.back

theorem ChannelInStep.step {algorithm : CipherAlgorithm} {keys : Bytes × Bytes}
    {channel next : Channel} {event : Bool × PacketEvent}
    (inStep : ChannelInStep algorithm keys channel) (unforged : channel.Unforged event)
    (stepped : channel.step event = some next) : ChannelInStep algorithm keys next := by
  obtain ⟨side, event⟩ := event
  cases side with
  | true =>
      cases stepped
      exact ⟨inStep.forth.step unforged, inStep.back⟩
  | false =>
      cases stepped
      exact ⟨inStep.forth, inStep.back.step unforged⟩

/-- Both halves of a pair are new states with a key. -/
theorem SymmetricState.split_eq {state : SymmetricState} {secondaryKey : Bytes}
    {pair : CipherStatePair} (split : state.split secondaryKey = .ok pair) :
    ∃ keys : Bytes × Bytes, pair.send = ⟨state.cipher.algorithm, some keys.1, 0⟩ ∧
      pair.recv = ⟨state.cipher.algorithm, some keys.2, 0⟩ := by
  rw [SymmetricState.split] at split
  split at split
  · cases split
  · cases split
    exact ⟨(_, _), rfl, rfl⟩

/-- Whatever both sides send and whatever the network brings them. -/
theorem transport_inOrder {state : SymmetricState} {secondaryKey : Bytes} {pair : CipherStatePair}
    (decrypts : state.cipher.algorithm.Decrypts) (split : state.split secondaryKey = .ok pair)
    {events : List (Bool × PacketEvent)} {channel : Channel}
    (unforged : Meets Channel.step Channel.Unforged (.new pair pair.swap) events)
    (ran : run Channel.step (.new pair pair.swap) events = some channel) :
    channel.forth.InOrder ∧ channel.back.InOrder := by
  obtain ⟨keys, send, recv⟩ := SymmetricState.split_eq split
  have start : ChannelInStep state.cipher.algorithm keys (.new pair pair.swap) := by
    rw [Channel.new, CipherStatePair.swap, send, recv]
    exact ⟨.new _ _, .new _ _⟩
  have kept := run_invariant_of_meets ChannelInStep.step start unforged ran
  exact ⟨kept.forth.inOrder decrypts, kept.back.inOrder decrypts⟩

/-- A tag that tells the vector and the key. -/
def sampleTag (key iv : Bytes) : Bytes := (iv ++ key ++ List.replicate 16 0).take 16

theorem sampleTag_length (key iv : Bytes) : (sampleTag key iv).length = 16 := by
  simp only [sampleTag, List.length_take, List.length_append, List.length_replicate]
  omega

def taggingAes : AesGcm where
  doEncrypt key iv _ plaintext := plaintext ++ sampleTag key iv
  doDecrypt key iv _ ciphertext :=
    if 16 ≤ ciphertext.length ∧ ciphertext.drop (ciphertext.length - 16) = sampleTag key iv then
      some (ciphertext.take (ciphertext.length - 16))
    else none
  doEncrypt_length key iv _ plaintext := by rw [List.length_append, sampleTag_length]
  doDecrypt_length key iv _ ciphertext plaintext opened := by
    split at opened
    · cases opened
      rw [List.length_take]
      omega
    · cases opened

theorem taggingAes_decrypts : taggingAes.Decrypts := fun key iv ad plaintext => by
  have length := sampleTag_length key iv
  simp [taggingAes, length]

def sampleState : SymmetricState where
  name := "Noise_N_25519_AESGCM_SHA256"
  cipher := .new taggingAes.algorithm
  hash := sampleHash
  ck := []
  h := []

/-- The keys of the two directions. -/
def sampleKeys : Bytes × Bytes := sampleHash.hkdf [] [] keyLength keyLength

/-- The packet that one side makes of two messages with the second nonce. -/
def samplePacket : Bytes := taggingAes.doEncrypt sampleKeys.1 (iv 1) [] [2]

/-- Bytes are made up and refused, the second packet overtakes the first, comes once more and is
sent back to its sender, who has read the other side's only packet. -/
def sampleEvents : List (Bool × PacketEvent) :=
  [(true, .send none [1] 17), (true, .send none [2] 17), (false, .send none [3] 17),
    (true, .receive none (List.replicate 20 7) 4), (true, .receive none samplePacket 1),
    (true, .receive none samplePacket 1),
    (true, .receive none (taggingAes.doEncrypt sampleKeys.1 (iv 0) [] [1]) 1),
    (false, .receive none (taggingAes.doEncrypt sampleKeys.2 (iv 0) [] [3]) 1),
    (false, .receive none samplePacket 1)]

theorem transport_inOrder_sample :
    ∃ pair channel, sampleState.split [] = .ok pair ∧
      run Channel.step (.new pair pair.swap) sampleEvents = some channel ∧
      channel.forth.InOrder ∧ channel.back.InOrder := by
  obtain ⟨pair, split⟩ : ∃ pair, sampleState.split [] = .ok pair := ⟨_, rfl⟩
  have unforged : Meets Channel.step Channel.Unforged (.new pair pair.swap) sampleEvents := by
    cases split
    decide +kernel
  obtain ⟨channel, ran⟩ : ∃ channel,
      run Channel.step (.new pair pair.swap) sampleEvents = some channel := ⟨_, rfl⟩
  have inOrder := transport_inOrder taggingAes_decrypts.algorithm split unforged ran
  exact ⟨pair, channel, split, ran, inOrder⟩

end Conclave.NoiseProtocol
