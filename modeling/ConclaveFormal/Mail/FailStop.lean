import ConclaveFormal.Mail.Authenticity

/-!
# Reading on after an exception

Only a failed handshake is remembered.  After any other failure the stream goes
on behind the bytes it has used up, so whether it stays failed is decided by the
rest of the input: `RefusesAll` says that no later packet is accepted, and
`FailsForGood` puts the ways together in which an input can fail.
-/

set_option autoImplicit false

namespace Conclave.Mail

open Conclave.Lib

/-! ## One packet of the input -/

/-- What the stream makes of the next bytes, and what it goes on with. -/
inductive PacketOutcome (N : Noise) where
  /-- The input ends inside the packet. -/
  | cut
  | refused (next : CipherState N) (rest : Bytes)
  /-- The plaintext claims more user bytes than it has. -/
  | oversized (next : CipherState N) (userBytesLength : Nat) (rest : Bytes)
  | accepted (next : CipherState N) (payloadLength userBytesLength : Nat) (rest : Bytes)

def packetOutcome {N : Noise} (cipherState : CipherState N) : Bytes → PacketOutcome N
  | b1 :: b2 :: rest =>
      let packetLength := b1.toNat * 256 + b2.toNat
      if packetLength < macLength then .refused cipherState rest
      else if rest.length < packetLength then .cut
      else
        match cipherState.decryptWithAd (rest.take packetLength) with
        | (none, next) => .refused next (rest.drop packetLength)
        | (some plaintext, next) =>
            let payloadLength := plaintext.length - 2
            let userBytesLength := readShort plaintext payloadLength
            if plaintext.length < 2 then .refused next (rest.drop packetLength)
            else if payloadLength < userBytesLength then
              .oversized next userBytesLength (rest.drop packetLength)
            else .accepted next payloadLength userBytesLength (rest.drop packetLength)
  | _ => .cut

/-- No packet of the input is accepted.  A packet whose length of user bytes is
wrong moves the end of the buffer, so it must not stated any other length than
the last accepted one, `last`. -/
inductive RefusesAll {N : Noise} (last : Nat) : CipherState N → Bytes → Prop
  | cut {cipherState : CipherState N} {input : Bytes}
      (outcome : packetOutcome cipherState input = .cut) : RefusesAll last cipherState input
  | refused {cipherState next : CipherState N} {input rest : Bytes}
      (outcome : packetOutcome cipherState input = .refused next rest)
      (later : RefusesAll last next rest) : RefusesAll last cipherState input
  | oversized {cipherState next : CipherState N} {input rest : Bytes}
      (outcome : packetOutcome cipherState input = .oversized next last rest)
      (later : RefusesAll last next rest) : RefusesAll last cipherState input

/-- Accepted packets up to the terminator, or up to a packet behind which none
is accepted. -/
inductive StopsForGood {N : Noise} : Nat → CipherState N → Bytes → Prop
  | terminator {last userBytesLength : Nat} {cipherState next : CipherState N}
      {input rest : Bytes}
      (outcome : packetOutcome cipherState input = .accepted next 0 userBytesLength rest) :
      StopsForGood last cipherState input
  | accepted {last payloadLength userBytesLength : Nat} {cipherState next : CipherState N}
      {input rest : Bytes}
      (outcome : packetOutcome cipherState input =
        .accepted next payloadLength userBytesLength rest)
      (later : StopsForGood userBytesLength next rest) : StopsForGood last cipherState input
  | failed {last : Nat} {cipherState : CipherState N} {input : Bytes}
      (refuses : RefusesAll last cipherState input) : StopsForGood last cipherState input

/-- `read(b, off, 0)`, which looks at neither the packets nor the input. -/
def ReadRequest.isEmpty : ReadRequest → Bool
  | one => false
  | many _ _ len => decide (len = 0)

namespace MailDecryptingStream

open Attempt

variable {N : Noise}

/-- A packet read follows `packetOutcome`. -/
theorem readNextPacket_outcome {stream : MailDecryptingStream N} {cipherState : CipherState N}
    (session : stream.cipherState = some cipherState) :
    match packetOutcome cipherState stream.input with
    | .cut => ∃ e, readNextPacket stream = (.error e, { stream with input := [] })
    | .refused next rest => ∃ e buffer, readNextPacket stream =
        (.error e, { stream with
          input := rest
          cipherState := some next
          currentDecryptedBuffer := buffer })
    | .oversized next userBytesLength rest => ∃ e buffer, readNextPacket stream =
        (.error e, { stream with
          input := rest
          cipherState := some next
          currentDecryptedBuffer := buffer
          currentUserBytesLength := userBytesLength })
    | .accepted next payloadLength userBytesLength rest => ∃ buffer, readNextPacket stream =
        (.ok (), { stream with
          input := rest
          cipherState := some next
          currentDecryptedBuffer := buffer
          currentUserBytesLength := userBytesLength
          currentUserBytesIndex := if payloadLength = 0 then -1 else 0 }) := by
  rcases input : stream.input with _ | ⟨b1, _ | ⟨b2, rest⟩⟩
  · exact ⟨_, readNextPacket_truncated session (by simp [input])⟩
  · exact ⟨_, readNextPacket_truncated session (by simp [input])⟩
  · by_cases small : b1.toNat * 256 + b2.toNat < macLength
    · simp only [packetOutcome, if_pos small]
      refine ⟨.mailDecryption (.packetLength (b1.toNat * 256 + b2.toNat)),
        stream.currentDecryptedBuffer, ?_⟩
      rw [readNextPacket_tooSmall session input small, ← session]
    · by_cases cut : rest.length < b1.toNat * 256 + b2.toNat
      · simp only [packetOutcome, if_neg small, if_pos cut]
        exact ⟨_, readNextPacket_cut session input (Nat.le_of_not_lt small) cut⟩
      · simp only [packetOutcome, if_neg small, if_neg cut]
        have whole := readNextPacket_whole session input (Nat.le_of_not_lt small)
          (Nat.le_of_not_lt cut)
        cases decrypted : cipherState.decryptWithAd (rest.take (b1.toNat * 256 + b2.toNat)) with
        | mk opened next =>
            rw [decrypted] at whole
            cases opened with
            | none => exact ⟨_, _, whole⟩
            | some plaintext =>
                simp only at whole ⊢
                by_cases short : plaintext.length < 2
                · simp only [if_pos short]
                  rw [acceptPlaintext_short short] at whole
                  exact ⟨_, _, whole⟩
                · by_cases oversized :
                      plaintext.length - 2 < readShort plaintext (plaintext.length - 2)
                  · simp only [if_neg short, if_pos oversized]
                    rw [acceptPlaintext_oversized (Nat.le_of_not_lt short) oversized] at whole
                    exact ⟨_, _, whole⟩
                  · simp only [if_neg short, if_neg oversized]
                    rw [acceptPlaintext_ok (Nat.le_of_not_lt short)
                      (Nat.le_of_not_lt oversized)] at whole
                    exact ⟨_, whole⟩

/-! ## Stuck streams -/

/-- The cursor is at the end of the buffer. -/
def Drained (stream : MailDecryptingStream N) : Prop :=
  stream.currentUserBytesIndex = stream.currentUserBytesLength

/-- There is no session and no key to get one with. -/
structure Keyless (stream : MailDecryptingStream N) : Prop where
  pending : stream.cipherState = none
  noKey : stream.privateKey = none
  drained : Drained stream

/-- There is a session, and no packet left that it accepts. -/
structure Refusing (stream : MailDecryptingStream N) : Prop where
  drained : Drained stream
  known : stream.prologue.isSome = true
  refuses : ∃ last cipherState, stream.currentUserBytesLength = (last : Nat) ∧
    stream.cipherState = some cipherState ∧ RefusesAll last cipherState stream.input

def Stuck (stream : MailDecryptingStream N) : Prop := Keyless stream ∨ Refusing stream

theorem Stuck.drained {stream : MailDecryptingStream N} (stuck : Stuck stream) :
    Drained stream := by
  rcases stuck with keyless | refusing
  · exact keyless.drained
  · exact refusing.drained

theorem Stuck.withPrivateHeader {stream : MailDecryptingStream N} (stuck : Stuck stream)
    (privateHeader : Option Bytes) (privateHeaderRead : Bool) :
    Stuck (stream.withPrivateHeader privateHeader privateHeaderRead) := by
  rcases stuck with keyless | refusing
  · exact Or.inl ⟨keyless.pending, keyless.noKey, keyless.drained⟩
  · exact Or.inr ⟨refusing.drained, refusing.known, refusing.refuses⟩

/-- The prologue is read from the input only. -/
theorem getPrologue_frame (stream : MailDecryptingStream N) :
    (getPrologue stream).2 =
      { stream with
        input := (getPrologue stream).2.input
        prologue := (getPrologue stream).2.prologue } := by
  cases known : stream.prologue with
  | some prologue =>
      rw [getPrologue_known known]
  | none =>
      cases split : splitPrologue stream.input with
      | error failure =>
          rw [getPrologue_truncated known split]
      | ok pair =>
          obtain ⟨raw, rest⟩ := pair
          rw [getPrologue_parse known split]
          cases parsePrologue raw <;> rfl

theorem getPrologue_keyless {stream : MailDecryptingStream N} (keyless : Keyless stream) :
    Keyless (getPrologue stream).2 := by
  rw [getPrologue_frame]
  exact ⟨keyless.pending, keyless.noKey, keyless.drained⟩

theorem Stuck.getPrologue {stream : MailDecryptingStream N} (stuck : Stuck stream) :
    Stuck (MailDecryptingStream.getPrologue stream).2 := by
  rcases stuck with keyless | refusing
  · exact Or.inl (getPrologue_keyless keyless)
  · obtain ⟨prologue, known⟩ := Option.isSome_iff_exists.mp refusing.known
    rw [getPrologue_known known]
    exact Or.inr refusing

/-- Without a key the handshake fails, and the stream stays without one. -/
theorem maybeHandshake_keyless {stream : MailDecryptingStream N} (keyless : Keyless stream) :
    ∃ e after, maybeHandshake stream = (.error e, after) ∧ Keyless after := by
  cases failed : stream.handshakeFailure with
  | some failure =>
      exact ⟨_, stream, maybeHandshake_remembered keyless.pending failed, keyless⟩
  | none =>
      rw [maybeHandshake_untried keyless.pending failed]
      have still := getPrologue_keyless keyless
      cases got : MailDecryptingStream.getPrologue stream with
      | mk outcome middle =>
          rw [got] at still
          cases outcome with
          | error e =>
              have ran : establishSession stream = (.error e, middle) := bind_error got
              rw [ran]
              exact ⟨_, _, rfl, ⟨still.pending, rfl, still.drained⟩⟩
          | ok prologue =>
              have set : setupHandshake prologue middle =
                  (.error (.illegalState
                    "Private key has not been provided to decrypt the stream."), middle) := by
                unfold setupHandshake
                rw [get_bind]
                rw [still.noKey]
                rfl
              have ran : establishSession stream = (.error (.illegalState
                  "Private key has not been provided to decrypt the stream."), middle) :=
                (bind_ok got).trans (bind_error set)
              rw [ran]
              exact ⟨_, _, rfl, ⟨still.pending, rfl, still.drained⟩⟩

theorem Refusing.readNextPacket {stream : MailDecryptingStream N} (refusing : Refusing stream) :
    ∃ e after, readNextPacket stream = (.error e, after) ∧ Refusing after := by
  obtain ⟨last, cipherState, length, session, refuses⟩ := refusing.refuses
  have step := readNextPacket_outcome session
  cases refuses with
  | cut outcome =>
      rw [outcome] at step
      obtain ⟨e, ran⟩ := step
      exact ⟨e, _, ran, ⟨refusing.drained, refusing.known, last, cipherState, length, session,
        RefusesAll.cut rfl⟩⟩
  | @refused _ next _ rest outcome later =>
      rw [outcome] at step
      obtain ⟨e, buffer, ran⟩ := step
      exact ⟨e, _, ran, ⟨refusing.drained, refusing.known, last, next, length, rfl, later⟩⟩
  | @oversized _ next _ rest outcome later =>
      rw [outcome] at step
      obtain ⟨e, buffer, ran⟩ := step
      exact ⟨e, _, ran, ⟨refusing.drained.trans length, refusing.known, last, next, rfl, rfl,
        later⟩⟩

theorem Stuck.readNextPacket {stream : MailDecryptingStream N} (stuck : Stuck stream) :
    ∃ e after, readNextPacket stream = (.error e, after) ∧ Stuck after := by
  rcases stuck with keyless | refusing
  · obtain ⟨e, after, failed, still⟩ := maybeHandshake_keyless keyless
    exact ⟨e, after, readNextPacket_noSession failed, Or.inl still⟩
  · obtain ⟨e, after, rejected, still⟩ := refusing.readNextPacket
    exact ⟨e, after, rejected, Or.inr still⟩

/-! ## Dead streams -/

theorem read_blocked {stream after : MailDecryptingStream N} {e : StreamException}
    (headerRead : stream.privateHeaderRead = true) (drained : Drained stream)
    (rejected : readNextPacket stream = (.error e, after)) (request : ReadRequest)
    (asks : request.isEmpty = false) :
    (∃ e', read request stream = (.error e', after)) ∨
      ∃ e', read request stream = (.error e', stream) := by
  have ensured := ensureAvailablePacket_rejected drained rejected
  rw [read_of_headerRead request headerRead]
  cases request with
  | one => exact Or.inl ⟨e, bind_error (bind_error ensured)⟩
  | many size off len =>
      simp only [ReadRequest.isEmpty, decide_eq_false_iff_not] at asks
      by_cases invalid : outOfBounds size off len = true
      · simp only [if_pos invalid]
        exact Or.inr ⟨_, rfl⟩
      · simp only [if_neg invalid, if_neg asks]
        simp only [outOfBounds, Bool.or_eq_true, decide_eq_true_eq, not_or] at invalid
        obtain ⟨wanted, positive⟩ : ∃ wanted, len.toNat = wanted + 1 :=
          ⟨len.toNat - 1, by omega⟩
        have copied : readUserBytes len.toNat stream = (.error e, after) := by
          rw [readUserBytes, positive]
          exact bind_error ensured
        exact Or.inl ⟨e, bind_error copied⟩

/-- A stuck stream stays stuck while it looks for the private header. -/
theorem maybeReadPrivateHeader_stuck {stream : MailDecryptingStream N} (stuck : Stuck stream) :
    (∃ e after, maybeReadPrivateHeader stream = (.error e, after) ∧ Stuck after) ∨
      ∃ after, maybeReadPrivateHeader stream = (.ok (), after) ∧ Stuck after ∧
        after.privateHeaderRead = true := by
  cases flag : stream.privateHeaderRead with
  | true => exact Or.inr ⟨stream, by simp [maybeReadPrivateHeader, flag], stuck, flag⟩
  | false =>
      rw [maybeReadPrivateHeader_unread flag]
      have flagged := stuck.withPrivateHeader stream.privateHeader true
      have still := flagged.getPrologue
      have frame := getPrologue_frame (stream.withPrivateHeader stream.privateHeader true)
      have kept : (getPrologue
          (stream.withPrivateHeader stream.privateHeader true)).2.privateHeaderRead = true := by
        rw [frame]
        rfl
      cases got : getPrologue (stream.withPrivateHeader stream.privateHeader true) with
      | mk outcome middle =>
          rw [got] at still kept
          cases outcome with
          | error e => exact Or.inl ⟨e, middle, bind_error got, still⟩
          | ok prologue =>
              rw [bind_ok got]
              by_cases old : prologue.protocol.ordinal <
                  MailProtocol.senderKeyTransmittedV2.ordinal
              · rw [if_pos old]
                exact Or.inr ⟨_, rfl, still.withPrivateHeader none middle.privateHeaderRead, kept⟩
              · rw [if_neg old]
                obtain ⟨e, after, rejected, stuckAfter⟩ := still.readNextPacket
                have received : receivePrivateHeader middle = (.error e, after) :=
                  bind_error (bind_error (bind_error (bind_error
                    (ensureAvailablePacket_rejected still.drained rejected))))
                rw [handle_error received, headerFailed_eq]
                exact Or.inl ⟨_, _, rfl, stuckAfter.withPrivateHeader after.privateHeader false⟩

/-- Streams every read of which throws. -/
inductive Dead : MailDecryptingStream N → Prop
  | stuck {stream : MailDecryptingStream N} (stuck : Stuck stream) : Dead stream
  /-- The next packet read fails, and the stream is stuck then. -/
  | doomed {stream after : MailDecryptingStream N} {e : StreamException}
      (headerRead : stream.privateHeaderRead = true) (drained : Drained stream)
      (rejected : readNextPacket stream = (.error e, after)) (stuck : Stuck after) : Dead stream
  /-- The mail has ended before its private header. -/
  | headless {stream : MailDecryptingStream N} {prologue : Prologue}
      (unread : stream.privateHeaderRead = false) (known : stream.prologue = some prologue)
      (recent : ¬ prologue.protocol.ordinal < MailProtocol.senderKeyTransmittedV2.ordinal)
      (yields : Yields stream [] .terminator) : Dead stream

theorem Stuck.read {stream : MailDecryptingStream N} (stuck : Stuck stream)
    (request : ReadRequest) (asks : request.isEmpty = false) :
    ∃ e after, read request stream = (.error e, after) ∧ Stuck after := by
  rcases maybeReadPrivateHeader_stuck stuck with
    ⟨e, after, thrown, still⟩ | ⟨middle, first, still, headerRead⟩
  · exact ⟨e, after, bind_error thrown, still⟩
  · rw [read_after_header request first headerRead]
    obtain ⟨e, after, rejected, stuckAfter⟩ := still.readNextPacket
    rcases read_blocked headerRead still.drained rejected request asks with
      ⟨e', ran⟩ | ⟨e', ran⟩
    · exact ⟨e', after, ran, stuckAfter⟩
    · exact ⟨e', middle, ran, still⟩

/-- The size of a header behind the terminator reads as minus one. -/
theorem Dead.read_headless {stream : MailDecryptingStream N} {prologue : Prologue}
    (unread : stream.privateHeaderRead = false) (known : stream.prologue = some prologue)
    (recent : ¬ prologue.protocol.ordinal < MailProtocol.senderKeyTransmittedV2.ordinal)
    (yields : Yields stream [] .terminator) (request : ReadRequest) :
    ∃ e after, read request stream = (.error e, after) ∧ Dead after := by
  have first := maybeReadPrivateHeader_unread unread
  have flagged := yields.withPrivateHeader stream.privateHeader true
  have outcome := flagged.receivePrivateHeader
  generalize flaggedEq : stream.withPrivateHeader stream.privateHeader true = opened
    at first outcome
  have openedKnown : opened.prologue = some prologue := by rw [← flaggedEq]; exact known
  rw [bind_ok (getPrologue_known openedKnown), if_neg recent] at first
  generalize resultEq : receivePrivateHeader opened = result at outcome
  cases outcome with
  | received header rest middle size layout enough => simp at enough
  | rejected e after failed => cases failed
  | ended e after last short kept rest =>
      rw [handle_error resultEq, headerFailed_eq] at first
      exact ⟨_, _, bind_error first, Dead.headless rfl (kept.prologue _ openedKnown) recent
        (rest.withPrivateHeader after.privateHeader false)⟩
  | negative after size kept rest =>
      rw [handle_error resultEq, headerFailed_eq] at first
      exact ⟨_, _, bind_error first, Dead.headless rfl (kept.prologue _ openedKnown) recent
        (rest.withPrivateHeader after.privateHeader false)⟩

theorem Dead.read {stream : MailDecryptingStream N} (dead : Dead stream) (request : ReadRequest)
    (asks : request.isEmpty = false) :
    ∃ e after, read request stream = (.error e, after) ∧ Dead after := by
  cases dead with
  | stuck stuck =>
      obtain ⟨e, after, ran, still⟩ := stuck.read request asks
      exact ⟨e, after, ran, Dead.stuck still⟩
  | doomed headerRead drained rejected stuck =>
      rcases read_blocked headerRead drained rejected request asks with ⟨e, ran⟩ | ⟨e, ran⟩
      · exact ⟨e, _, ran, Dead.stuck stuck⟩
      · exact ⟨e, _, ran, Dead.doomed headerRead drained rejected stuck⟩
  | headless unread known recent yields =>
      exact Dead.read_headless unread known recent yields request

theorem Dead.runReads {stream : MailDecryptingStream N} (dead : Dead stream)
    (reads : List ReadRequest) (ask : ∀ request ∈ reads, request.isEmpty = false) :
    ∀ result ∈ (runReads reads stream).1, result.isException = true := by
  induction reads generalizing stream with
  | nil =>
      intro result member
      cases member
  | cons request rest ih =>
      obtain ⟨e, after, ran, still⟩ := dead.read request (ask request (by simp))
      rw [runReads_cons, ran]
      intro result member
      rcases List.mem_cons.mp member with now | later
      · rw [now]
        rfl
      · exact ih still (fun other inside => ask other (by simp [inside])) result later

/-! ## Live streams -/

/-- The failure a session runs into leaves it stuck if the rest of its input
stops for good. -/
theorem Yields.stuck {stream after : MailDecryptingStream N} {bytes : Bytes}
    {e : StreamException} (yields : Yields stream bytes (.failure e after)) {last : Nat}
    {cipherState : CipherState N} (session : stream.cipherState = some cipherState)
    (known : stream.prologue.isSome = true)
    (length : stream.currentUserBytesLength = (last : Nat))
    (stops : stream.currentUserBytesIndex = -1 ∨ StopsForGood last cipherState stream.input) :
    Stuck after := by
  generalize failed : Ending.failure e after = ending at yields
  induction yields generalizing last cipherState with
  | terminator => cases failed
  | @rejected stream after e drained thrown =>
      cases failed
      rcases stops with past | stops
      · omega
      · have step := readNextPacket_outcome session
        cases stops with
        | terminator outcome =>
            rw [outcome] at step
            obtain ⟨buffer, ran⟩ := step
            rw [thrown] at ran
            cases ran
        | accepted outcome later =>
            rw [outcome] at step
            obtain ⟨buffer, ran⟩ := step
            rw [thrown] at ran
            cases ran
        | failed refuses =>
            have refusing : Refusing stream :=
              ⟨drained, known, last, cipherState, length, session, refuses⟩
            obtain ⟨_, _, ran, still⟩ := refusing.readNextPacket
            rw [thrown] at ran
            cases ran
            exact Or.inr still
  | @accepted stream middle bytes ending drained returned rest ih =>
      rcases stops with past | stops
      · omega
      · have step := readNextPacket_outcome session
        have kept := readNextPacket_keeps stream
        cases stops with
        | terminator outcome =>
            rw [outcome] at step
            obtain ⟨buffer, ran⟩ := step
            rw [returned] at ran
            cases ran
            exact ih rfl known rfl (Or.inl (by simp)) failed
        | accepted outcome later =>
            rw [outcome] at step
            obtain ⟨buffer, ran⟩ := step
            rw [returned] at ran
            cases ran
            exact ih rfl known rfl (Or.inr later) failed
        | failed refuses =>
            have refusing : Refusing stream :=
              ⟨drained, known, last, cipherState, length, session, refuses⟩
            obtain ⟨_, _, ran, _⟩ := refusing.readNextPacket
            rw [returned] at ran
            cases ran
  | @byte stream bytes ending low high bound rest ih =>
      rcases stops with past | stops
      · omega
      · exact ih session known length (Or.inr stops) failed

/-- Streams that have not failed yet, and are stuck once they have. -/
structure Live (stream : MailDecryptingStream N) : Prop where
  located : stream.privateHeaderRead = true ∨ stream.prologue.isSome = true
  yields : ∃ bytes ending, Yields stream bytes ending ∧
    ∀ e after, ending = .failure e after → Stuck after

end MailDecryptingStream

def ReadResult.isMailDecryption : ReadResult → Bool
  | exception e => e.isMailDecryption
  | _ => false

/-- Behind the first `MailDecryptionException` there are exceptions only. -/
def FailStop (results : List ReadResult) : Prop :=
  results.Pairwise fun earlier later =>
    earlier.isMailDecryption = true → later.isException = true

theorem readOf_not_mailDecryption (body : Bytes) (request : ReadRequest) :
    (readOf body request).1.isMailDecryption = false := by
  cases request with
  | one => cases body <;> rfl
  | many size off len =>
      simp only [readOf]
      split
      · rfl
      · split
        · rfl
        · split <;> rfl

namespace MailDecryptingStream

open Attempt

variable {N : Noise}

/-- How one call can leave a live stream. -/
def Continues (outcome : ReadResult × MailDecryptingStream N) : Prop :=
  (outcome.1.isMailDecryption = false ∧ Live outcome.2) ∨
    (outcome.1.isException = true ∧ Dead outcome.2)

theorem Live.read_headerRead {stream : MailDecryptingStream N} (live : Live stream)
    (headerRead : stream.privateHeaderRead = true) (request : ReadRequest) :
    Continues (report (read request stream)) := by
  obtain ⟨bytes, ending, yields, stuck⟩ := live.yields
  rcases read_step yields headerRead request with
    ⟨after, ran, kept, behind, _⟩ | ⟨_, e, after, failed, ran⟩
  · rw [ran]
    exact Or.inl ⟨readOf_not_mailDecryption _ _,
      ⟨Or.inl (kept.privateHeaderRead.trans headerRead), _, _, behind, stuck⟩⟩
  · rw [ran]
    exact Or.inr ⟨rfl, Dead.stuck (stuck e after failed)⟩

theorem stuck_of_map {ending : Ending N} (privateHeader : Option Bytes)
    (privateHeaderRead : Bool) (stuck : ∀ e after, ending = .failure e after → Stuck after) :
    ∀ e after, ending.map (withPrivateHeader privateHeader privateHeaderRead) =
      .failure e after → Stuck after := by
  intro e after mapped
  cases ending with
  | terminator => cases mapped
  | failure thrown before =>
      cases mapped
      exact (stuck _ before rfl).withPrivateHeader _ _

theorem read_thrown {stream after : MailDecryptingStream N} {e : StreamException}
    (request : ReadRequest) (thrown : maybeReadPrivateHeader stream = (.error e, after)) :
    read request stream = (.error e, after) :=
  bind_error thrown

theorem Live.read {stream : MailDecryptingStream N} (live : Live stream)
    (request : ReadRequest) : Continues (report (read request stream)) := by
  cases flag : stream.privateHeaderRead with
  | true => exact live.read_headerRead flag request
  | false =>
      obtain ⟨prologue, known⟩ : ∃ prologue, stream.prologue = some prologue := by
        rcases live.located with set | known
        · rw [flag] at set
          cases set
        · exact Option.isSome_iff_exists.mp known
      obtain ⟨bytes, ending, yields, stuck⟩ := live.yields
      have first := maybeReadPrivateHeader_unread flag
      have flagged := yields.withPrivateHeader stream.privateHeader true
      have flaggedStuck := stuck_of_map stream.privateHeader true stuck
      generalize ending.map (MailDecryptingStream.withPrivateHeader stream.privateHeader true) =
        ending' at flagged flaggedStuck
      generalize flaggedEq : stream.withPrivateHeader stream.privateHeader true = opened
        at first flagged
      have openedKnown : opened.prologue = some prologue := by rw [← flaggedEq]; exact known
      have openedFlag : opened.privateHeaderRead = true := by rw [← flaggedEq]; rfl
      rw [bind_ok (getPrologue_known openedKnown)] at first
      by_cases old : prologue.protocol.ordinal < MailProtocol.senderKeyTransmittedV2.ordinal
      · rw [if_pos old] at first
        have after : Live (opened.withPrivateHeader none opened.privateHeaderRead) :=
          ⟨Or.inl openedFlag, bytes, _, flagged.withPrivateHeader _ _,
            stuck_of_map _ _ flaggedStuck⟩
        rw [read_after_header request first openedFlag]
        exact after.read_headerRead openedFlag request
      · rw [if_neg old] at first
        have outcome := flagged.receivePrivateHeader
        generalize resultEq : receivePrivateHeader opened = result at outcome
        cases outcome with
        | received header rest middle size layout enough kept behind =>
            rw [handle_ok resultEq] at first
            have middleFlag := kept.privateHeaderRead.trans openedFlag
            have after : Live
                (middle.withPrivateHeader (emptyToNull (some header)) middle.privateHeaderRead) :=
              ⟨Or.inl middleFlag, rest, _, behind.withPrivateHeader _ _,
                stuck_of_map _ _ flaggedStuck⟩
            rw [read_after_header request first middleFlag]
            exact after.read_headerRead middleFlag request
        | rejected e after failed =>
            rw [handle_error resultEq, headerFailed_eq] at first
            rw [read_thrown request first]
            exact Or.inr ⟨rfl, Dead.stuck
              ((flaggedStuck e after failed).withPrivateHeader after.privateHeader false)⟩
        | ended e after last short kept behind =>
            rw [handle_error resultEq, headerFailed_eq] at first
            rw [read_thrown request first]
            exact Or.inr ⟨rfl, Dead.headless rfl (kept.prologue _ openedKnown) old
              (behind.withPrivateHeader after.privateHeader false)⟩
        | negative after size kept behind =>
            -- A negative size is no `MailDecryptionException`; the next call looks
            -- for a private header behind it.
            rw [handle_error resultEq, headerFailed_eq] at first
            rw [read_thrown request first]
            have stillKnown : after.prologue.isSome = true := by
              rw [kept.prologue _ openedKnown]
              rfl
            exact Or.inl ⟨rfl, Or.inr stillKnown, _, _,
              behind.withPrivateHeader after.privateHeader false, stuck_of_map _ _ flaggedStuck⟩

theorem Continues.failStop {outcome : ReadResult × MailDecryptingStream N}
    (continues : Continues outcome) {rest : List ReadRequest}
    (ask : ∀ request ∈ rest, request.isEmpty = false)
    (later : Live outcome.2 → FailStop (runReads rest outcome.2).1) :
    FailStop (outcome.1 :: (runReads rest outcome.2).1) := by
  rcases continues with ⟨harmless, live⟩ | ⟨_, dead⟩
  · refine List.Pairwise.cons ?_ (later live)
    intro result _ thrown
    rw [harmless] at thrown
    cases thrown
  · have exceptions := dead.runReads rest ask
    refine List.Pairwise.cons (fun result member _ => exceptions result member) ?_
    exact List.pairwise_of_forall_mem_list fun _ _ result member _ => exceptions result member

theorem Live.runReads {stream : MailDecryptingStream N} (live : Live stream)
    (reads : List ReadRequest) (ask : ∀ request ∈ reads, request.isEmpty = false) :
    FailStop (runReads reads stream).1 := by
  induction reads generalizing stream with
  | nil => exact List.Pairwise.nil
  | cons request rest ih =>
      have askLater : ∀ other ∈ rest, other.isEmpty = false :=
        fun other inside => ask other (by simp [inside])
      rw [runReads_cons]
      exact (live.read request).failStop askLater fun still => ih still askLater

end MailDecryptingStream

/-! ## The start of the input -/

/-- The session a handshake in front of `input` opens, and what is behind it. -/
def openSession {N : Noise} (privateKey : N.PrivateKey) (prologue : Prologue) (input : Bytes) :
    Option (N.CipherKey × Bytes) :=
  let handshakeLength := prologue.protocol.handshakeLength
  if input.length < handshakeLength then none
  else
    match N.readMessage privateKey prologue.raw (input.take handshakeLength) with
    | .error _ => none
    | .ok (_, key) => some (key, input.drop handshakeLength)

open MailDecryptingStream in
/-- The same with the prologue still to be read. -/
def openMail {N : Noise} (privateKey : N.PrivateKey) (input : Bytes) :
    Option (N.CipherKey × Bytes) :=
  match splitPrologue input with
  | .error _ => none
  | .ok (raw, rest) =>
      match parsePrologue raw with
      | .error _ => none
      | .ok prologue => openSession privateKey prologue rest

open MailDecryptingStream in
/-- Nothing that a failure leaves unread would be accepted: behind a prologue
that parses and its handshake, the packets stop for good; behind a prologue that
does not, there is no other mail, or only one without a good packet. -/
def FailsForGood {N : Noise} (privateKey : Option N.PrivateKey) (input : Bytes) : Prop :=
  ∀ provided raw rest, privateKey = some provided → splitPrologue input = .ok (raw, rest) →
    match parsePrologue raw with
    | .ok prologue => ∀ key packets, openSession provided prologue rest = some (key, packets) →
        StopsForGood 0 ⟨key, 0⟩ packets
    | .error e => ∀ key packets, openMail provided rest = some (key, packets) →
        if e.isMailDecryption then RefusesAll 0 ⟨key, 0⟩ packets
        else StopsForGood 0 ⟨key, 0⟩ packets

namespace MailDecryptingStream

open Attempt

variable {N : Noise}

/-- The state before the first packet: there is a key and no session yet. -/
structure Pending (stream : MailDecryptingStream N) (privateKey : N.PrivateKey) : Prop where
  cipherState : stream.cipherState = none
  handshakeFailure : stream.handshakeFailure = none
  privateKey : stream.privateKey = some privateKey
  index : stream.currentUserBytesIndex = 0
  length : stream.currentUserBytesLength = 0

theorem Pending.drained {stream : MailDecryptingStream N} {privateKey : N.PrivateKey}
    (pending : Pending stream privateKey) : Drained stream :=
  pending.index.trans pending.length.symm

/-- What the handshake leaves: no key, or a session and the packets. -/
def Established (stream : MailDecryptingStream N) (session : Option (N.CipherKey × Bytes)) :
    Prop :=
  (∃ e after, maybeHandshake stream = (.error e, after) ∧ Keyless after) ∨
    ∃ key packets after, session = some (key, packets) ∧
      maybeHandshake stream = (.ok ⟨key, 0⟩, after) ∧ after.cipherState = some ⟨key, 0⟩ ∧
      after.input = packets ∧ after.prologue.isSome = true ∧
      after.currentUserBytesIndex = 0 ∧ after.currentUserBytesLength = 0

theorem Pending.handshake_known {stream : MailDecryptingStream N} {privateKey : N.PrivateKey}
    {prologue : Prologue} (pending : Pending stream privateKey)
    (known : stream.prologue = some prologue) :
    Established stream (openSession privateKey prologue stream.input) := by
  have first := maybeHandshake_first pending.cipherState pending.handshakeFailure known
    pending.privateKey
  unfold openSession
  by_cases short : stream.input.length < prologue.protocol.handshakeLength
  · rw [if_pos short] at first
    exact Or.inl ⟨_, _, first, pending.cipherState, rfl, pending.drained⟩
  · simp only [if_neg short] at first ⊢
    cases opened : N.readMessage privateKey prologue.raw
        (stream.input.take prologue.protocol.handshakeLength) with
    | error e =>
        rw [opened] at first
        exact Or.inl ⟨_, _, first, pending.cipherState, rfl, pending.drained⟩
    | ok session =>
        obtain ⟨sender, key⟩ := session
        rw [opened] at first
        exact Or.inr ⟨key, _, _, rfl, first, rfl, rfl, by simp [known], pending.index,
          pending.length⟩

theorem Pending.handshake_unknown {stream : MailDecryptingStream N} {privateKey : N.PrivateKey}
    (pending : Pending stream privateKey) (unknown : stream.prologue = none) :
    Established stream (openMail privateKey stream.input) := by
  have first := maybeHandshake_untried pending.cipherState pending.handshakeFailure
  unfold openMail
  cases split : splitPrologue stream.input with
  | error failure =>
      have ran : establishSession stream = _ := bind_error (getPrologue_truncated unknown split)
      rw [ran] at first
      exact Or.inl ⟨_, _, first, pending.cipherState, rfl, pending.drained⟩
  | ok pair =>
      obtain ⟨raw, rest⟩ := pair
      have got := getPrologue_parse unknown split
      cases parsed : parsePrologue raw with
      | error e =>
          rw [parsed] at got
          have ran : establishSession stream = _ := bind_error got
          rw [ran] at first
          exact Or.inl ⟨_, _, first, pending.cipherState, rfl, pending.drained⟩
      | ok prologue =>
          simp only [parsed] at got
          generalize readEq : ({ stream with input := rest, prologue := some prologue } :
            MailDecryptingStream N) = middle at got
          have middlePending : Pending middle privateKey := by
            rw [← readEq]
            exact ⟨pending.cipherState, pending.handshakeFailure, pending.privateKey,
              pending.index, pending.length⟩
          have known : middle.prologue = some prologue := by rw [← readEq]
          have same : establishSession stream = establishSession middle := by
            unfold establishSession
            rw [bind_ok got, bind_ok (getPrologue_known known)]
          rw [same, ← maybeHandshake_untried middlePending.cipherState
            middlePending.handshakeFailure] at first
          have input : middle.input = rest := by rw [← readEq]
          have established := middlePending.handshake_known known
          rw [input] at established
          simp only [parsed]
          rcases established with ⟨e, after, failed, keyless⟩ | ⟨key, packets, after, session,
            ran, facts⟩
          · exact Or.inl ⟨e, after, first.trans failed, keyless⟩
          · exact Or.inr ⟨key, packets, after, session, first.trans ran, facts⟩

/-- The handshake does not change what the first packet is. -/
theorem Yields.beforeHandshake {stream after : MailDecryptingStream N} {bytes : Bytes}
    {ending : Ending N} {cipherState : CipherState N} (drained : Drained stream)
    (established : maybeHandshake stream = (.ok cipherState, after))
    (session : after.cipherState = some cipherState) (index : after.currentUserBytesIndex = 0)
    (length : after.currentUserBytesLength = 0) (yields : Yields after bytes ending) :
    Yields stream bytes ending := by
  have same := readNextPacket_afterHandshake established session
  cases yields with
  | terminator past => omega
  | rejected _ thrown => exact Yields.rejected drained (same.trans thrown)
  | accepted _ returned rest => exact Yields.accepted drained (same.trans returned) rest
  | byte _ high => omega

theorem live_of_pending {stream : MailDecryptingStream N} {privateKey : N.PrivateKey}
    {session : Option (N.CipherKey × Bytes)} (pending : Pending stream privateKey)
    (located : stream.privateHeaderRead = true ∨ stream.prologue.isSome = true)
    (established : Established stream session)
    (stops : ∀ key packets, session = some (key, packets) →
      StopsForGood 0 ⟨key, 0⟩ packets) : Live stream := by
  rcases established with ⟨e, after, failed, keyless⟩ |
    ⟨key, packets, after, opened, ran, cipherState, input, known, index, length⟩
  · refine ⟨located, [], .failure e after,
      Yields.rejected pending.drained (readNextPacket_noSession failed), ?_⟩
    intro e' after' same
    cases same
    exact Or.inl keyless
  · have settled : Settled after := Or.inr ⟨by omega, by omega, by omega⟩
    obtain ⟨bytes, ending, yields⟩ := exists_yields _ cipherState settled le_rfl
    refine ⟨located, bytes, ending,
      yields.beforeHandshake pending.drained ran cipherState index length, ?_⟩
    intro e' after' failed
    subst failed
    have stop := stops key packets opened
    rw [← input] at stop
    have zero : after.currentUserBytesLength = ((0 : Nat) : Int) := length
    exact yields.stuck cipherState known zero (Or.inr stop)

theorem dead_of_pending {stream : MailDecryptingStream N} {privateKey : N.PrivateKey}
    {session : Option (N.CipherKey × Bytes)} (pending : Pending stream privateKey)
    (headerRead : stream.privateHeaderRead = true) (established : Established stream session)
    (refuses : ∀ key packets, session = some (key, packets) →
      RefusesAll 0 ⟨key, 0⟩ packets) : Dead stream := by
  rcases established with ⟨e, after, failed, keyless⟩ |
    ⟨key, packets, after, opened, ran, cipherState, input, known, index, length⟩
  · exact Dead.doomed headerRead pending.drained (readNextPacket_noSession failed)
      (Or.inl keyless)
  · have refusing : Refusing after := by
      refine ⟨index.trans length.symm, known, 0, ⟨key, 0⟩, length, cipherState, ?_⟩
      rw [input]
      exact refuses key packets opened
    obtain ⟨e, next, rejected, still⟩ := refusing.readNextPacket
    exact Dead.doomed headerRead pending.drained
      ((readNextPacket_afterHandshake ran cipherState).trans rejected) (Or.inr still)

/-- A prologue that parses may as well have been read before. -/
theorem read_fresh {stream : MailDecryptingStream N} {input raw rest : Bytes}
    {privateKey : N.PrivateKey} {prologue : Prologue} (request : ReadRequest)
    (fresh : Fresh stream input privateKey)
    (split : splitPrologue input = .ok (raw, rest)) (parsed : parsePrologue raw = .ok prologue) :
    read request stream =
      read request { stream with input := rest, prologue := some prologue } := by
  have first := maybeReadPrivateHeader_fresh fresh split parsed
  have unread : ({ stream with input := rest, prologue := some prologue } :
      MailDecryptingStream N).privateHeaderRead = false := fresh.privateHeaderRead
  have again := maybeReadPrivateHeader_unread unread
  rw [bind_ok (getPrologue_known rfl)] at again
  have same : maybeReadPrivateHeader stream = maybeReadPrivateHeader
      { stream with input := rest, prologue := some prologue } := first.trans again.symm
  exact bind_congr _ same

theorem Fresh.read {stream : MailDecryptingStream N} {input : Bytes} {privateKey : N.PrivateKey}
    (fresh : Fresh stream input privateKey) (stops : FailsForGood (some privateKey) input)
    (request : ReadRequest) : Continues (report (read request stream)) := by
  cases split : splitPrologue input with
  | error failure =>
      rw [read_thrown request (maybeReadPrivateHeader_truncated fresh split)]
      have pending : Pending
          ({ stream with privateHeaderRead := true, input := [] } : MailDecryptingStream N)
          privateKey :=
        ⟨fresh.cipherState, fresh.handshakeFailure, fresh.privateKey, fresh.index, fresh.length⟩
      refine Or.inr ⟨rfl, dead_of_pending pending rfl (pending.handshake_unknown fresh.prologue) ?_⟩
      intro key packets impossible
      cases impossible
  | ok pair =>
      obtain ⟨raw, rest⟩ := pair
      have condition := stops privateKey raw rest rfl split
      cases parsed : parsePrologue raw with
      | error e =>
          simp only [parsed] at condition
          rw [read_thrown request (maybeReadPrivateHeader_unparsed fresh split parsed)]
          have pending : Pending
              ({ stream with privateHeaderRead := true, input := rest } : MailDecryptingStream N)
              privateKey :=
            ⟨fresh.cipherState, fresh.handshakeFailure, fresh.privateKey, fresh.index,
              fresh.length⟩
          have established := pending.handshake_unknown fresh.prologue
          cases mail : e.isMailDecryption with
          | true =>
              simp only [mail, if_true] at condition
              exact Or.inr ⟨rfl, dead_of_pending pending rfl established condition⟩
          | false =>
              simp only [mail] at condition
              exact Or.inl ⟨mail, live_of_pending pending (Or.inl rfl) established condition⟩
      | ok prologue =>
          simp only [parsed] at condition
          rw [read_fresh request fresh split parsed]
          have pending : Pending
              ({ stream with input := rest, prologue := some prologue } :
                MailDecryptingStream N) privateKey :=
            ⟨fresh.cipherState, fresh.handshakeFailure, fresh.privateKey, fresh.index,
              fresh.length⟩
          exact (live_of_pending pending (Or.inr rfl) (pending.handshake_known rfl)
            condition).read request

/-- Whatever is read, behind the first `MailDecryptionException` there are
exceptions only, provided that the input fails for good and every read asks for
a byte. -/
theorem runReads_failStop {N : Noise} (privateKey : Option N.PrivateKey) (input : Bytes)
    (stops : FailsForGood privateKey input) (reads : List ReadRequest)
    (ask : ∀ request ∈ reads, request.isEmpty = false) :
    FailStop (runReads reads (new input privateKey)).1 := by
  cases privateKey with
  | none =>
      have keyless : Keyless (new (N := N) input none) := ⟨rfl, rfl, rfl⟩
      have thrown := (Dead.stuck (Or.inl keyless)).runReads reads ask
      exact List.pairwise_of_forall_mem_list fun _ _ result member _ => thrown result member
  | some provided =>
      cases reads with
      | nil => exact List.Pairwise.nil
      | cons request rest =>
          have askLater : ∀ other ∈ rest, other.isEmpty = false :=
            fun other inside => ask other (by simp [inside])
          rw [runReads_cons]
          exact ((fresh_new input provided).read stops request).failStop askLater fun live =>
            live.runReads rest askLater

/-- The recorded mail without its terminator. -/
def recordedCut : Bytes := recordedPreamble ++ (recordedFrames.take 1).flatten

theorem failsForGood_recordedCut :
    FailsForGood (N := recordedNoise) (some recordedReceiver) recordedCut := by
  intro provided raw rest key split
  cases key
  have known : splitPrologue recordedCut =
      .ok (recordedPrologue, recordedMessage ++ (recordedFrames.take 1).flatten) := by
    decide +kernel
  rw [known] at split
  cases split
  have parsed : parsePrologue recordedPrologue =
      .ok ⟨.senderKeyTransmittedV2, ⟨0, [116], none, none⟩, recordedPrologue⟩ := by
    decide +kernel
  simp only [parsed]
  intro key packets opened
  have session : openSession (N := recordedNoise) recordedReceiver
      ⟨.senderKeyTransmittedV2, ⟨0, [116], none, none⟩, recordedPrologue⟩
      (recordedMessage ++ (recordedFrames.take 1).flatten) =
      some (recordedPackets.map Packet.plaintext, (recordedFrames.take 1).flatten) := by
    rfl
  rw [session] at opened
  cases opened
  have first : packetOutcome (N := recordedNoise) ⟨recordedPackets.map Packet.plaintext, 0⟩
      ((recordedFrames.take 1).flatten) =
      .accepted ⟨recordedPackets.map Packet.plaintext, 1⟩ 5 5 [] := by
    simp [packetOutcome, CipherState.decryptWithAd, lastNonce, recordedFrames, frameList, frame,
      recordedPackets, Packet.plaintext, Packet.terminator, recordedNoise, writeShort, bigEndian,
      macLength, readShort]
  exact StopsForGood.accepted first (StopsForGood.failed (RefusesAll.cut rfl))

theorem runReads_failStop_recordedCut :
    FailStop (runReads [.one, .one, .many 4 0 4]
      (new (N := recordedNoise) recordedCut (some recordedReceiver))).1 :=
  runReads_failStop (N := recordedNoise) (some recordedReceiver) recordedCut
    failsForGood_recordedCut [.one, .one, .many 4 0 4] (by decide)

/-- A prologue with an unknown protocol in front of the recorded mail: the first
read throws, and the second one starts on the mail. -/
theorem runReads_resumes_behind_prologue :
    (runReads [.one, .one] (new (N := recordedNoise)
        ([0, 1, 255] ++ recordedPreamble ++ recordedFrames.flatten) (some recordedReceiver))).1 =
      [.exception (.mailDecryption (.invalidProtocolId 255)), .byte 0] ∧
    ¬ FailStop [.exception (.mailDecryption (.invalidProtocolId 255)), .byte 0] := by
  refine ⟨by decide +kernel, ?_⟩
  intro failStop
  have later := List.rel_of_pairwise_cons failStop (List.mem_singleton.mpr rfl) rfl
  cases later

end MailDecryptingStream

end Conclave.Mail
