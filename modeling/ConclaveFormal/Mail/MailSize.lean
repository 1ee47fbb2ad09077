import ConclaveFormal.Mail.EncryptedPackets

/-!
# The exact size of a mail

How many bytes a mail takes is a function of `minSize` and of the number of
plain bytes alone.  An output stream with room for them lets the sender finish
(`encrypt_progress`), and a sender that finishes has written exactly that many
(`encrypt_length`).
-/

set_option autoImplicit false

namespace Conclave.Mail

open Conclave.Lib

/-! ## Sizes -/

/-- The padding of the last packet with user bytes: what `minSize` still asks
for when the full packets are out, as far as the packet has room. -/
def lastPadding (minSize plainLength : Nat) : Nat :=
  if plainLength % maxPacketPayloadLength = 0 then 0
  else
    min (minSize - plainLength / maxPacketPayloadLength * maxPacketPayloadLength)
      (maxPacketPayloadLength - plainLength % maxPacketPayloadLength)

/-- User bytes and padding when the buffer has been flushed. -/
def flushedPayload (minSize plainLength : Nat) : Nat :=
  plainLength + lastPadding minSize plainLength

/-- User bytes and padding of the whole mail. -/
def totalPayload (minSize plainLength : Nat) : Nat :=
  max (flushedPayload minSize plainLength) minSize

def packetsFor (payload : Nat) : Nat :=
  (payload + (maxPacketPayloadLength - 1)) / maxPacketPayloadLength

/-- The packets with user bytes, those with padding only and the terminator. -/
def packetCount (minSize plainLength : Nat) : Nat :=
  packetsFor plainLength + packetsFor (minSize - flushedPayload minSize plainLength) + 1

/-- What follows the prologue and the handshake. -/
def framesSize (minSize plainLength : Nat) : Nat :=
  totalPayload minSize plainLength + 20 * packetCount minSize plainLength

theorem packetsFor_zero : packetsFor 0 = 0 := by
  unfold packetsFor
  rw [maxPacketPayloadLength_eq]

/-- A packet that takes `chunk` bytes of the rest leaves one packet fewer to go. -/
theorem packetsFor_step (payload : Nat) {chunk : Nat} (positive : 0 < payload)
    (chunkEq : chunk = min payload maxPacketPayloadLength) :
    packetsFor payload = packetsFor (payload - chunk) + 1 := by
  unfold packetsFor
  rw [maxPacketPayloadLength_eq] at *
  omega

theorem packetsFor_div (payload : Nat) :
    packetsFor payload = payload / maxPacketPayloadLength +
      if payload % maxPacketPayloadLength = 0 then 0 else 1 := by
  unfold packetsFor
  rw [maxPacketPayloadLength_eq]
  split <;> omega

namespace MailEncryptingStream

variable {N : Noise}

theorem writePacket_progress (stream : MailEncryptingStream N)
    (nonce : stream.cipherState.nonce < lastNonce)
    (fits : stream.out.length + (stream.nextPacket.payloadLength + 20) ≤ stream.capacity) :
    stream.writePacket = .ok stream.afterPacket :=
  (writePacket_ok_iff stream stream.afterPacket).mpr ⟨by omega, fits, rfl⟩

theorem afterPacket_out_length (stream : MailEncryptingStream N) :
    stream.afterPacket.out.length =
      stream.out.length + (stream.nextPacket.payloadLength + 20) := by
  have out : stream.afterPacket.out = stream.out ++
      frame N stream.cipherState.key stream.cipherState.nonce stream.nextPacket := rfl
  rw [out, List.length_append, frame_length]

/-! ## Writing -/

section Written

variable {initial stream : MailEncryptingStream N} {plain : Bytes}

private theorem sum_full (packets : List Packet)
    (full : ∀ packet ∈ packets,
      packet.userBytes.length = maxPacketPayloadLength ∧ packet.padding = 0) :
    (packets.flatMap Packet.userBytes).length = packets.length * maxPacketPayloadLength ∧
      (packets.map Packet.payloadLength).sum = packets.length * maxPacketPayloadLength := by
  induction packets with
  | nil => simp
  | cons packet rest ih =>
      obtain ⟨size, padding⟩ := full packet (by simp)
      obtain ⟨user, payload⟩ := ih fun other member => full other (by simp [member])
      simp only [List.flatMap_cons, List.length_append, List.map_cons, List.sum_cons,
        List.length_cons, Packet.payloadLength, size, padding, user, payload, Nat.succ_mul]
      omega

theorem Written.sent_buffer_length (written : Written initial plain stream) :
    stream.sent.length = plain.length / maxPacketPayloadLength ∧
      stream.buffer.length = plain.length % maxPacketPayloadLength := by
  have user := congrArg List.length written.user
  rw [List.length_append, (sum_full stream.sent written.full).1] at user
  have room := written.room
  rw [maxPacketPayloadLength_eq] at *
  omega

theorem Written.out_length (written : Written initial plain stream) :
    stream.out.length = initial.out.length +
      plain.length / maxPacketPayloadLength * (maxPacketPayloadLength + 20) := by
  rw [written.emits.out, List.length_append, framesFrom_length,
    (sum_full stream.sent written.full).2, written.sent_buffer_length.1, Nat.mul_add]
  omega

theorem Written.nonce (written : Written initial plain stream) :
    stream.cipherState.nonce =
      initial.cipherState.nonce + plain.length / maxPacketPayloadLength := by
  rw [written.emits.nonce, written.sent_buffer_length.1]

theorem Written.writeByte_progress (written : Written initial plain stream) (byte : UInt8)
    (nonce : initial.cipherState.nonce + (plain.length + 1) / maxPacketPayloadLength ≤ lastNonce)
    (fits : initial.out.length +
      (plain.length + 1) / maxPacketPayloadLength * (maxPacketPayloadLength + 20) ≤
        initial.capacity) :
    ∃ after, stream.writeByte byte = .ok after := by
  obtain ⟨sent, buffered⟩ := written.sent_buffer_length
  have out := written.out_length
  have count := written.nonce
  have capacity := written.emits.capacity
  unfold MailEncryptingStream.writeByte MailEncryptingStream.writePacketIfBufferFull
  generalize loadedEq :
    ({ stream with buffer := stream.buffer ++ [byte] } : MailEncryptingStream N) = loaded
  have loadedNonce : loaded.cipherState.nonce = stream.cipherState.nonce := by rw [← loadedEq]
  have loadedOut : loaded.out.length = stream.out.length := by rw [← loadedEq]
  have loadedCapacity : loaded.capacity = stream.capacity := by rw [← loadedEq]
  have loadedBuffer : loaded.buffer.length = stream.buffer.length + 1 := by
    rw [← loadedEq]
    simp
  split
  · rename_i full
    have payload := loaded.nextPacket_payloadLength_le (by omega)
    rw [maxPacketPayloadLength_eq] at *
    exact ⟨_, loaded.writePacket_progress (by omega) (by omega)⟩
  · exact ⟨_, rfl⟩

theorem Written.foldlM_progress (written : Written initial plain stream) (bytes : Bytes)
    (nonce : initial.cipherState.nonce +
      (plain.length + bytes.length) / maxPacketPayloadLength ≤ lastNonce)
    (fits : initial.out.length +
      (plain.length + bytes.length) / maxPacketPayloadLength * (maxPacketPayloadLength + 20) ≤
        initial.capacity) :
    ∃ after, bytes.foldlM MailEncryptingStream.writeByte stream = .ok after := by
  induction bytes generalizing stream plain with
  | nil => exact ⟨stream, rfl⟩
  | cons byte rest ih =>
      simp only [List.length_cons] at nonce fits
      have prefixNonce : (plain.length + 1) / maxPacketPayloadLength ≤
          (plain.length + (rest.length + 1)) / maxPacketPayloadLength :=
        Nat.div_le_div_right (by omega)
      obtain ⟨next, step⟩ := written.writeByte_progress byte (by omega) (by
        have prefixSize := Nat.mul_le_mul_right (maxPacketPayloadLength + 20) prefixNonce
        omega)
      have total : (plain ++ [byte]).length + rest.length =
          plain.length + (rest.length + 1) := by
        simp only [List.length_append, List.length_singleton]
        omega
      obtain ⟨after, run⟩ := ih (written.writeByte step) (by rw [total]; exact nonce)
        (by rw [total]; exact fits)
      refine ⟨after, ?_⟩
      rw [List.foldlM_cons, step]
      exact run

end Written

/-! ## Padding -/

/-- While the counter has not wrapped, the padding is what `minSize` asks for
beyond the bytes already written, as far as there is room. -/
theorem nextPacket_padding_eq (stream : MailEncryptingStream N) (minSize written : Nat)
    (minSizeEq : stream.minSize = minSize) (writtenEq : stream.payloadBytesWritten = written)
    (minSizeRange : minSize < 2 ^ 31) (writtenRange : written < 2 ^ 31) :
    stream.nextPacket.padding =
      min (minSize - written) (maxPacketPayloadLength - stream.buffer.length) := by
  have exact : wrap32 (stream.minSize - stream.payloadBytesWritten) =
      (minSize : Int) - written := by
    rw [minSizeEq, writtenEq]
    exact wrap32_of_range (by omega) (by omega)
  simp only [nextPacket, exact, coerceIn]
  omega

/-- What one packet of padding does. -/
theorem afterPacket_padding {stream : MailEncryptingStream N} {minSize written : Nat}
    (empty : stream.buffer = []) (minSizeEq : stream.minSize = minSize)
    (writtenEq : stream.payloadBytesWritten = written) (minSizeRange : minSize < 2 ^ 31)
    (below : written < minSize) :
    stream.nextPacket.payloadLength = min (minSize - written) maxPacketPayloadLength ∧
      stream.afterPacket.payloadBytesWritten =
        ((written + min (minSize - written) maxPacketPayloadLength : Nat) : Int) := by
  have padding := stream.nextPacket_padding_eq minSize written minSizeEq writtenEq minSizeRange
    (by omega)
  have bytes : stream.nextPacket.userBytes = [] := empty
  have payload : stream.nextPacket.payloadLength =
      min (minSize - written) maxPacketPayloadLength := by
    rw [Packet.payloadLength, bytes, padding, empty]
    simp
  refine ⟨payload, ?_⟩
  have counted : stream.afterPacket.payloadBytesWritten =
      wrap32 (stream.payloadBytesWritten + stream.nextPacket.payloadLength) := rfl
  rw [counted, payload, writtenEq, ← Int.natCast_add]
  exact wrap32_of_range (by omega) (by omega)

theorem padToMinSize_length (fuel : Nat) {stream after : MailEncryptingStream N}
    {minSize written : Nat} (empty : stream.buffer = []) (minSizeEq : stream.minSize = minSize)
    (writtenEq : stream.payloadBytesWritten = written) (minSizeRange : minSize < 2 ^ 31)
    (run : padToMinSize fuel stream = .ok after) :
    after.out.length =
        stream.out.length + (minSize - written) + 20 * packetsFor (minSize - written) ∧
      after.payloadBytesWritten = (max written minSize : Nat) ∧ after.buffer = [] ∧
      after.minSize = stream.minSize := by
  induction fuel generalizing stream written with
  | zero => simp [padToMinSize] at run
  | succ fuel ih =>
      by_cases below : written < minSize
      · rw [padToMinSize, if_pos (by omega)] at run
        cases step : stream.writePacket with
        | error e => simp [step] at run
        | ok next =>
            simp only [step] at run
            obtain ⟨_, _, rfl⟩ := (writePacket_ok_iff stream next).mp step
            obtain ⟨payload, counted⟩ :=
              afterPacket_padding empty minSizeEq writtenEq minSizeRange below
            have sameMinSize : stream.afterPacket.minSize = minSize := minSizeEq
            obtain ⟨out, total, emptied, kept⟩ := ih rfl sameMinSize counted run
            have size := stream.afterPacket_out_length
            have packets := packetsFor_step (minSize - written) (by omega) rfl
            have rest : minSize -
                (written + min (minSize - written) maxPacketPayloadLength) =
                  minSize - written - min (minSize - written) maxPacketPayloadLength := by omega
            rw [rest] at out
            refine ⟨?_, ?_, emptied, kept⟩
            · rw [out, size, payload, packets]
              omega
            · rw [total]
              congr 1
              omega
      · rw [padToMinSize, if_neg (by omega)] at run
        cases run
        have none : minSize - written = 0 := by omega
        rw [none, packetsFor_zero, writtenEq]
        exact ⟨by omega, by congr 1; omega, empty, rfl⟩

theorem padToMinSize_progress (fuel : Nat) {stream : MailEncryptingStream N}
    {minSize written : Nat} (empty : stream.buffer = []) (minSizeEq : stream.minSize = minSize)
    (writtenEq : stream.payloadBytesWritten = written) (minSizeRange : minSize < 2 ^ 31)
    (enough : packetsFor (minSize - written) < fuel)
    (nonce : stream.cipherState.nonce + packetsFor (minSize - written) ≤ lastNonce)
    (fits : stream.out.length + (minSize - written) + 20 * packetsFor (minSize - written) ≤
      stream.capacity) :
    ∃ after, padToMinSize fuel stream = .ok after ∧
      after.cipherState.nonce =
        stream.cipherState.nonce + packetsFor (minSize - written) ∧
      after.capacity = stream.capacity := by
  induction fuel generalizing stream written with
  | zero => omega
  | succ fuel ih =>
      by_cases below : written < minSize
      · rw [padToMinSize, if_pos (by omega)]
        obtain ⟨payload, counted⟩ :=
          afterPacket_padding empty minSizeEq writtenEq minSizeRange below
        have packets := packetsFor_step (minSize - written) (by omega) rfl
        have step := stream.writePacket_progress (by omega) (by omega)
        have size := stream.afterPacket_out_length
        have nextNonce : stream.afterPacket.cipherState.nonce =
            stream.cipherState.nonce + 1 := rfl
        have nextCapacity : stream.afterPacket.capacity = stream.capacity := rfl
        have rest : minSize - (written + min (minSize - written) maxPacketPayloadLength) =
            minSize - written - min (minSize - written) maxPacketPayloadLength := by omega
        have sameMinSize : stream.afterPacket.minSize = minSize := minSizeEq
        obtain ⟨after, run, last, capacity⟩ := ih rfl sameMinSize counted
          (by rw [rest]; omega) (by rw [rest]; omega) (by rw [rest]; omega)
        rw [rest] at last
        simp only [step]
        exact ⟨after, run, by omega, capacity⟩
      · rw [padToMinSize, if_neg (by omega)]
        have none : minSize - written = 0 := by omega
        rw [none, packetsFor_zero]
        exact ⟨stream, rfl, rfl, rfl⟩

/-! ## Closing -/

section Close

variable {initial stream : MailEncryptingStream N} {plain : Bytes} {minSize : Nat}

/-- The last packet with user bytes. -/
theorem Written.nextPacket_payload (written : Written initial plain stream)
    (minSizeEq : initial.minSize = minSize) (minSizeRange : minSize < 2 ^ 31)
    (plainRange : plain.length < 2 ^ 31)
    (buffered : plain.length % maxPacketPayloadLength ≠ 0) :
    stream.nextPacket.payloadLength =
        plain.length % maxPacketPayloadLength + lastPadding minSize plain.length ∧
      stream.afterPacket.payloadBytesWritten =
        wrap32 (flushedPayload minSize plain.length : Nat) := by
  obtain ⟨sent, buffer⟩ := written.sent_buffer_length
  have whole := Nat.div_add_mod' plain.length maxPacketPayloadLength
  have counted : stream.payloadBytesWritten =
      (plain.length / maxPacketPayloadLength * maxPacketPayloadLength : Nat) := by
    rw [written.counted, sent]
    exact wrap32_of_range (by omega) (by omega)
  have padding := stream.nextPacket_padding_eq minSize _
    (written.emits.minSize.trans minSizeEq) counted minSizeRange (by omega)
  rw [buffer] at padding
  have bytes : stream.nextPacket.userBytes = stream.buffer := rfl
  have payload : stream.nextPacket.payloadLength =
      plain.length % maxPacketPayloadLength + lastPadding minSize plain.length := by
    rw [Packet.payloadLength, bytes, buffer, padding, lastPadding, if_neg buffered]
  refine ⟨payload, ?_⟩
  have sum : stream.afterPacket.payloadBytesWritten =
      wrap32 (stream.payloadBytesWritten + stream.nextPacket.payloadLength) := rfl
  rw [sum, counted, payload, ← Int.natCast_add, flushedPayload]
  congr 2
  omega

/-- The stream after `flush`, whichever branch it takes. -/
structure Flushed (initial : MailEncryptingStream N) (minSize plainLength : Nat)
    (stream : MailEncryptingStream N) : Prop where
  buffer : stream.buffer = []
  out : stream.out.length = initial.out.length + flushedPayload minSize plainLength +
    20 * packetsFor plainLength
  nonce : stream.cipherState.nonce = initial.cipherState.nonce + packetsFor plainLength
  written : stream.payloadBytesWritten = wrap32 (flushedPayload minSize plainLength : Nat)
  minSize : stream.minSize = initial.minSize
  capacity : stream.capacity = initial.capacity

theorem Written.flushed_of_empty (written : Written initial plain stream)
    (empty : plain.length % maxPacketPayloadLength = 0) :
    Flushed initial minSize plain.length stream := by
  obtain ⟨sent, buffer⟩ := written.sent_buffer_length
  have whole := Nat.div_add_mod' plain.length maxPacketPayloadLength
  have packets := packetsFor_div plain.length
  have noPadding : flushedPayload minSize plain.length = plain.length := by
    simp [flushedPayload, lastPadding, empty]
  rw [if_pos empty] at packets
  refine ⟨List.length_eq_zero_iff.mp (by omega), ?_, ?_, ?_, written.emits.minSize,
    written.emits.capacity⟩
  · rw [written.out_length, noPadding, packets, Nat.mul_add]
    omega
  · rw [written.nonce, packets]
    omega
  · have exact : plain.length / maxPacketPayloadLength * maxPacketPayloadLength =
        plain.length := by omega
    rw [written.counted, sent, noPadding, exact]

theorem Written.flushed_of_nonempty (written : Written initial plain stream)
    (minSizeEq : initial.minSize = minSize) (minSizeRange : minSize < 2 ^ 31)
    (plainRange : plain.length < 2 ^ 31)
    (buffered : plain.length % maxPacketPayloadLength ≠ 0) :
    Flushed initial minSize plain.length stream.afterPacket := by
  have whole := Nat.div_add_mod' plain.length maxPacketPayloadLength
  have packets := packetsFor_div plain.length
  rw [if_neg buffered] at packets
  obtain ⟨payload, counted⟩ :=
    written.nextPacket_payload minSizeEq minSizeRange plainRange buffered
  refine ⟨rfl, ?_, ?_, counted, written.emits.minSize, written.emits.capacity⟩
  · rw [stream.afterPacket_out_length, payload, written.out_length, packets, flushedPayload,
      Nat.mul_add]
    omega
  · have next : stream.afterPacket.cipherState.nonce = stream.cipherState.nonce + 1 := rfl
    rw [next, written.nonce, packets]
    omega

theorem Written.flush_flushed (written : Written initial plain stream)
    {after : MailEncryptingStream N} (minSizeEq : initial.minSize = minSize)
    (minSizeRange : minSize < 2 ^ 31) (plainRange : plain.length < 2 ^ 31)
    (run : stream.flush = .ok after) : Flushed initial minSize plain.length after := by
  obtain ⟨_, buffer⟩ := written.sent_buffer_length
  unfold MailEncryptingStream.flush at run
  split at run
  · obtain ⟨_, _, rfl⟩ := (writePacket_ok_iff stream after).mp run
    exact written.flushed_of_nonempty minSizeEq minSizeRange plainRange (by omega)
  · cases run
    exact written.flushed_of_empty (by omega)

theorem Written.flush_progress (written : Written initial plain stream)
    (minSizeEq : initial.minSize = minSize) (minSizeRange : minSize < 2 ^ 31)
    (plainRange : plain.length < 2 ^ 31)
    (nonce : initial.cipherState.nonce + packetsFor plain.length ≤ lastNonce)
    (fits : initial.out.length + flushedPayload minSize plain.length +
      20 * packetsFor plain.length ≤ initial.capacity) :
    ∃ after, stream.flush = .ok after := by
  obtain ⟨_, buffer⟩ := written.sent_buffer_length
  unfold MailEncryptingStream.flush
  by_cases nonempty : stream.buffer.length > 0
  · have flushed :=
      written.flushed_of_nonempty minSizeEq minSizeRange plainRange (by omega)
    have out := flushed.out
    have count := flushed.nonce
    have next : stream.afterPacket.cipherState.nonce = stream.cipherState.nonce + 1 := rfl
    have capacity := written.emits.capacity
    rw [stream.afterPacket_out_length] at out
    rw [if_pos nonempty]
    exact ⟨_, stream.writePacket_progress (by omega) (by omega)⟩
  · rw [if_neg nonempty]
    exact ⟨_, rfl⟩

/-- The packet `close` writes last carries nothing. -/
theorem nextPacket_last {stream : MailEncryptingStream N} {minSize written : Nat}
    (empty : stream.buffer = []) (minSizeEq : stream.minSize = minSize)
    (writtenEq : stream.payloadBytesWritten = written) (writtenRange : written < 2 ^ 31)
    (done : minSize ≤ written) : stream.nextPacket = Packet.terminator := by
  refine nextPacket_terminator empty ?_ (by omega) (by omega)
  rw [writtenEq]
  exact wrap32_of_range (by omega) (by omega)

theorem Flushed.close_length {flushed second final : MailEncryptingStream N} {plainLength : Nat}
    (state : Flushed initial minSize plainLength flushed)
    (minSizeEq : initial.minSize = minSize) (minSizeRange : minSize < 2 ^ 31)
    (inRange : flushedPayload minSize plainLength < 2 ^ 31) {fuel : Nat}
    (padded : padToMinSize fuel flushed = .ok second)
    (last : second.writePacket = .ok final) :
    final.out.length = initial.out.length + framesSize minSize plainLength := by
  have counted : flushed.payloadBytesWritten = (flushedPayload minSize plainLength : Nat) := by
    rw [state.written]
    exact wrap32_of_range (by omega) (by omega)
  obtain ⟨out, total, empty, kept⟩ := padToMinSize_length fuel state.buffer
    (state.minSize.trans minSizeEq) counted minSizeRange padded
  obtain ⟨_, _, rfl⟩ := (writePacket_ok_iff second final).mp last
  have terminator := nextPacket_last empty (kept.trans (state.minSize.trans minSizeEq)) total
    (by omega) (by omega)
  have payload : second.nextPacket.payloadLength = 0 := by rw [terminator]; rfl
  rw [second.afterPacket_out_length, payload, out, state.out, framesSize, totalPayload,
    packetCount]
  omega

/-- A mail whose payload counter would wrap is never finished: the padding loop
goes on with empty packets. -/
theorem Flushed.overflow_stuck {flushed after : MailEncryptingStream N} {plainLength : Nat}
    (state : Flushed initial minSize plainLength flushed)
    (minSizeEq : initial.minSize = minSize) (minSizeRange : minSize < 2 ^ 31)
    (atLeast : plainLength ≤ minSize)
    (overflow : 2 ^ 31 ≤ flushedPayload minSize plainLength) (fuel : Nat) :
    padToMinSize fuel flushed ≠ .ok after := by
  have padding : lastPadding minSize plainLength ≤ maxPacketPayloadLength := by
    unfold lastPadding
    split <;> omega
  have wrapped : flushed.payloadBytesWritten =
      (flushedPayload minSize plainLength : Int) - 2 ^ 32 := by
    rw [state.written, wrap32, Int.bmod_def]
    unfold flushedPayload at *
    rw [maxPacketPayloadLength_eq] at padding
    split <;> omega
  have size := state.minSize.trans minSizeEq
  refine padToMinSize_stuck fuel flushed after state.buffer ?_ ?_ ?_
  · rw [wrapped, size]
    unfold flushedPayload at *
    rw [maxPacketPayloadLength_eq] at padding
    omega
  · rw [state.written, wrap32_wrap32]
  · have asked : wrap32 (flushed.minSize - flushed.payloadBytesWritten) ≤ 0 := by
      rw [size, wrapped, wrap32, Int.bmod_def]
      unfold flushedPayload at *
      rw [maxPacketPayloadLength_eq] at padding
      split <;> omega
    simp only [nextPacket, coerceIn]
    omega

theorem Written.close_length (written : Written initial plain stream)
    {final : MailEncryptingStream N} (minSizeEq : initial.minSize = minSize)
    (minSizeRange : minSize < 2 ^ 31) (plainRange : plain.length < 2 ^ 31)
    (inRange : flushedPayload minSize plain.length < 2 ^ 31 ∨ plain.length ≤ minSize)
    (run : stream.close = .ok final) :
    final.out.length = initial.out.length + framesSize minSize plain.length := by
  unfold MailEncryptingStream.close at run
  cases flushed : stream.flush with
  | error e => simp [flushed] at run
  | ok first =>
      simp only [flushed] at run
      have state := written.flush_flushed minSizeEq minSizeRange plainRange flushed
      cases padded : padToMinSize (first.capacity + 1) first with
      | error e => simp [padded] at run
      | ok second =>
          simp only [padded] at run
          have noOverflow : flushedPayload minSize plain.length < 2 ^ 31 := by
            by_contra overflow
            refine state.overflow_stuck minSizeEq minSizeRange ?_ (by omega) _ padded
            rcases inRange with small | atLeast
            · exact absurd small overflow
            · exact atLeast
          exact state.close_length minSizeEq minSizeRange noOverflow padded run

theorem Written.close_progress (written : Written initial plain stream)
    (minSizeEq : initial.minSize = minSize) (minSizeRange : minSize < 2 ^ 31)
    (inRange : totalPayload minSize plain.length < 2 ^ 31)
    (nonce : initial.cipherState.nonce + packetCount minSize plain.length ≤ lastNonce)
    (fits : initial.out.length + framesSize minSize plain.length ≤ initial.capacity) :
    ∃ final, stream.close = .ok final := by
  unfold totalPayload flushedPayload at inRange
  unfold framesSize totalPayload at fits
  unfold packetCount at nonce fits
  obtain ⟨first, flushed⟩ := written.flush_progress minSizeEq minSizeRange (by omega)
    (by omega) (by omega)
  have state := written.flush_flushed minSizeEq minSizeRange (by omega) flushed
  have counted : first.payloadBytesWritten =
      (flushedPayload minSize plain.length : Nat) := by
    rw [state.written, flushedPayload]
    exact wrap32_of_range (by omega) (by omega)
  have size := state.minSize.trans minSizeEq
  have out := state.out
  have firstNonce := state.nonce
  have capacity := state.capacity
  obtain ⟨second, padded, secondNonce, secondCapacity⟩ :=
    padToMinSize_progress (first.capacity + 1) state.buffer size counted minSizeRange
      (by omega) (by omega) (by omega)
  obtain ⟨secondOut, total, empty, kept⟩ :=
    padToMinSize_length (first.capacity + 1) state.buffer size counted minSizeRange padded
  have terminator := nextPacket_last empty (kept.trans size) total
    (by unfold flushedPayload; omega) (by omega)
  have payload : second.nextPacket.payloadLength = 0 := by rw [terminator]; rfl
  have last := second.writePacket_progress (by omega) (by omega)
  refine ⟨second.afterPacket, ?_⟩
  unfold MailEncryptingStream.close
  simp only [flushed, padded]
  exact last

end Close

end MailEncryptingStream

/-! ## The whole mail -/

/-- The prologue behind its size, and the handshake message. -/
def preambleSize (header : EnclaveMailHeaderImpl) : Nat := 2 + prologueSize header + 97

def mailSize (header : EnclaveMailHeaderImpl) (minSize plainLength : Nat) : Nat :=
  preambleSize header + framesSize minSize plainLength

theorem plainBytes_length (privateHeader : Option Bytes) (body : Bytes) :
    (plainBytes privateHeader body).length =
      4 + (privateHeader.getD []).length + body.length := by
  simp [plainBytes, writeInt, Nat.add_assoc]

section Mail

open MailEncryptingStream

variable {N : Noise} {destination : N.PublicKey} {header : EnclaveMailHeaderImpl}
  {privateHeader : Option Bytes} {sender : N.PrivateKey} {ephemeral : N.Ephemeral}

theorem handshake_length {preamble : Bytes} {key : N.CipherKey}
    (hello : handshake destination sender ephemeral header = .ok (preamble, key)) :
    preamble.length = preambleSize header := by
  unfold handshake at hello
  cases computed : computePrologue .senderKeyTransmittedV2 header with
  | error e => simp [computed] at hello
  | ok prologue =>
      simp only [computed, Except.ok.injEq, Prod.mk.injEq] at hello
      obtain ⟨rfl, _⟩ := hello
      have message := N.writeMessage_length destination sender ephemeral prologue [0]
      simp only [List.length_append, message, writeShort, bigEndian_length, List.length_singleton,
        computePrologue_length computed, preambleSize]

theorem handshake_ok (destination : N.PublicKey) (sender : N.PrivateKey)
    (ephemeral : N.Ephemeral) (topicFits : (encodeUtf header.topic).length ≤ 65535) :
    ∃ preamble key, handshake destination sender ephemeral header = .ok (preamble, key) := by
  obtain ⟨prologue, computed⟩ :=
    (computePrologue_ok_iff .senderKeyTransmittedV2 header).mpr topicFits
  unfold handshake
  rw [computed]
  exact ⟨_, _, rfl⟩

theorem encrypt_length {minSize capacity : Nat} {requests : List WriteRequest}
    {final : MailEncryptingStream N} (minSizeRange : minSize < 2 ^ 31)
    {plainLength : Nat}
    (plainLengthEq : plainLength = 4 + (privateHeader.getD []).length +
      (requests.flatMap WriteRequest.written).length)
    (plainRange : plainLength < 2 ^ 31)
    (inRange : flushedPayload minSize plainLength < 2 ^ 31 ∨ plainLength ≤ minSize)
    (run : encrypt destination header privateHeader sender minSize ephemeral capacity requests =
      .ok final) :
    final.out.length = mailSize header minSize plainLength := by
  obtain ⟨_, preamble, key, stream, hello, _, body, closed⟩ :=
    (encrypt_ok_iff destination header privateHeader sender minSize ephemeral capacity requests
      final).mp run
  have written := (written_start key minSize preamble capacity).foldlM body
  rw [List.nil_append] at written
  have length := plainBytes_length privateHeader (requests.flatMap WriteRequest.written)
  rw [← plainLengthEq] at length
  have total := written.close_length rfl minSizeRange (by omega) (by rw [length]; exact inRange)
    closed
  rw [total, length, mailSize, ← handshake_length hello]
  rfl

theorem encrypt_progress (destination : N.PublicKey) (sender : N.PrivateKey)
    (ephemeral : N.Ephemeral) {minSize capacity : Nat} {requests : List WriteRequest}
    (minSizeRange : minSize < 2 ^ 31) (valid : ∀ request ∈ requests, request.valid = true)
    (topicFits : (encodeUtf header.topic).length ≤ 65535) {plainLength : Nat}
    (plainLengthEq : plainLength = 4 + (privateHeader.getD []).length +
      (requests.flatMap WriteRequest.written).length)
    (inRange : totalPayload minSize plainLength < 2 ^ 31)
    (fits : mailSize header minSize plainLength ≤ capacity) :
    ∃ final, encrypt destination header privateHeader sender minSize ephemeral capacity requests =
      .ok final := by
  obtain ⟨preamble, key, hello⟩ := handshake_ok destination sender ephemeral topicFits
  have preambleLength := handshake_length hello
  have length := plainBytes_length privateHeader (requests.flatMap WriteRequest.written)
  rw [← plainLengthEq] at length
  have out : (start key minSize preamble capacity).out.length = preamble.length := rfl
  have nonce : (start key minSize preamble capacity).cipherState.nonce = 0 := rfl
  have room : (start key minSize preamble capacity).capacity = capacity := rfl
  have count : packetCount minSize plainLength ≤ lastNonce := by
    unfold totalPayload flushedPayload at inRange
    unfold packetCount packetsFor lastNonce
    rw [maxPacketPayloadLength_eq]
    omega
  have chunks : plainLength / maxPacketPayloadLength * (maxPacketPayloadLength + 20) ≤
      framesSize minSize plainLength := by
    unfold framesSize totalPayload flushedPayload packetCount packetsFor
    rw [maxPacketPayloadLength_eq]
    omega
  have chunkCount : plainLength / maxPacketPayloadLength ≤ lastNonce := by
    unfold packetCount packetsFor at count
    rw [maxPacketPayloadLength_eq] at *
    omega
  unfold mailSize at fits
  obtain ⟨stream, body⟩ := (written_start key minSize preamble capacity).foldlM_progress
    (plainBytes privateHeader (requests.flatMap WriteRequest.written))
    (by rw [List.length_nil, Nat.zero_add, length, nonce]; omega)
    (by rw [List.length_nil, Nat.zero_add, length, out, room]; omega)
  have written := (written_start key minSize preamble capacity).foldlM body
  rw [List.nil_append] at written
  obtain ⟨final, closed⟩ := written.close_progress rfl minSizeRange (by rw [length]; exact inRange)
    (by rw [length, nonce]; omega) (by rw [length, out, room]; omega)
  exact ⟨final, (encrypt_ok_iff destination header privateHeader sender minSize ephemeral capacity
    requests final).mpr ⟨valid, preamble, key, stream, hello, by omega, body, closed⟩⟩

theorem userBytes_le_payload (packets : List Packet) :
    (packets.flatMap Packet.userBytes).length ≤ (packets.map Packet.payloadLength).sum := by
  induction packets with
  | nil => simp
  | cons packet rest ih =>
      simp only [List.flatMap_cons, List.length_append, List.map_cons, List.sum_cons]
      unfold Packet.payloadLength at ih ⊢
      omega

/-- On an output of less than `2^31` bytes the payload counter cannot wrap, so
a mail that is produced has its exact size, and that size had room. -/
theorem encrypt_size {minSize capacity : Nat} {requests : List WriteRequest}
    {final : MailEncryptingStream N} (minSizeRange : minSize < 2 ^ 31)
    (capacityRange : capacity < 2 ^ 31) {plainLength : Nat}
    (plainLengthEq : plainLength = 4 + (privateHeader.getD []).length +
      (requests.flatMap WriteRequest.written).length)
    (run : encrypt destination header privateHeader sender minSize ephemeral capacity requests =
      .ok final) :
    final.out.length = mailSize header minSize plainLength ∧ final.out.length ≤ capacity := by
  obtain ⟨_, preamble, key, stream, hello, preambleFits, body, closed⟩ :=
    (encrypt_ok_iff destination header privateHeader sender minSize ephemeral capacity requests
      final).mp run
  have written := (written_start key minSize preamble capacity).foldlM body
  rw [List.nil_append] at written
  have length := plainBytes_length privateHeader (requests.flatMap WriteRequest.written)
  rw [← plainLengthEq] at length
  obtain ⟨packets, last, finished⟩ := written.close closed
  have fits : final.out.length ≤ capacity := by
    have bound := finished.emits.fits preambleFits
    rw [finished.emits.capacity] at bound
    exact bound
  have user : plainLength ≤ final.out.length := by
    have payload := userBytes_le_payload packets
    rw [finished.user, length] at payload
    rw [finished.emits.out, List.length_append, framesFrom_length, List.map_append,
      List.sum_append]
    omega
  have inRange : flushedPayload minSize plainLength < 2 ^ 31 := by
    unfold MailEncryptingStream.close at closed
    cases flushed : stream.flush with
    | error e => simp [flushed] at closed
    | ok first =>
        have state := written.flush_flushed rfl minSizeRange (by omega) flushed
        obtain ⟨_, emits, _⟩ := written.flush flushed
        have bound := emits.fits preambleFits
        have out := state.out
        rw [emits.capacity] at bound
        rw [length] at out
        change first.out.length ≤ capacity at bound
        omega
  exact ⟨encrypt_length minSizeRange plainLengthEq (by omega) (Or.inl inRange) run, fits⟩

end Mail

end Conclave.Mail
