import ConclaveFormal.Mail.EncryptingStream

/-!
# What the encrypting stream emits

Every way of splitting the bytes over `write` calls is the same fold of
`writeByte` (`writeLoop_eq_foldlM`, `writeAll_eq_foldlM`), so the stream is
analysed one byte at a time.  `Emits` says which packets an operation appends
to the output, `Written` is the invariant between the constructor and `close`,
and `close_shape` describes the packets of a finished mail without any bound on
its size.
-/

set_option autoImplicit false

namespace Conclave.Mail

open Conclave.Lib

namespace MailEncryptingStream

variable {N : Noise}

/-! ## One packet -/

def afterPacket (stream : MailEncryptingStream N) : MailEncryptingStream N :=
  { stream with
    cipherState := { stream.cipherState with nonce := stream.cipherState.nonce + 1 }
    out := stream.out ++
      frame N stream.cipherState.key stream.cipherState.nonce stream.nextPacket
    payloadBytesWritten :=
      wrap32 (stream.payloadBytesWritten + stream.nextPacket.payloadLength)
    buffer := []
    sent := stream.sent ++ [stream.nextPacket] }

theorem writePacket_ok_iff (stream after : MailEncryptingStream N) :
    stream.writePacket = .ok after ↔
      stream.cipherState.nonce ≠ lastNonce ∧
      stream.out.length + (stream.nextPacket.payloadLength + 20) ≤ stream.capacity ∧
      after = stream.afterPacket := by
  have size := frame_length N stream.cipherState.key stream.cipherState.nonce stream.nextPacket
  unfold frame at size
  simp only at size
  have checked := N.encrypt_length stream.cipherState.key stream.cipherState.nonce
    stream.nextPacket.plaintext
  unfold writePacket CipherState.encryptWithAd
  by_cases exhausted : stream.cipherState.nonce = lastNonce
  · simp [exhausted]
  · simp only [exhausted, if_false, checked, ne_eq, not_true_eq_false]
    rw [← checked]
    split
    · rename_i tooLong
      simp only [reduceCtorEq, false_iff, not_and]
      intro _ fits
      omega
    · rename_i fits
      constructor
      · intro written
        cases written
        exact ⟨not_false, by omega, rfl⟩
      · rintro ⟨_, _, rfl⟩
        rfl

theorem nextPacket_padding_le (stream : MailEncryptingStream N) :
    stream.nextPacket.padding ≤ maxPacketPayloadLength - stream.buffer.length := by
  simp only [nextPacket, coerceIn]
  omega

theorem nextPacket_payloadLength_le (stream : MailEncryptingStream N)
    (room : stream.buffer.length ≤ maxPacketPayloadLength) :
    stream.nextPacket.payloadLength ≤ maxPacketPayloadLength := by
  have padding := stream.nextPacket_padding_le
  have bytes : stream.nextPacket.userBytes = stream.buffer := rfl
  simp only [Packet.payloadLength, bytes]
  omega

/-! ## Emitting a list of packets -/

structure Emits (before : MailEncryptingStream N) (packets : List Packet)
    (after : MailEncryptingStream N) : Prop where
  key : after.cipherState.key = before.cipherState.key
  nonce : after.cipherState.nonce = before.cipherState.nonce + packets.length
  counter : before.cipherState.nonce ≤ lastNonce → after.cipherState.nonce ≤ lastNonce
  fits : before.out.length ≤ before.capacity → after.out.length ≤ after.capacity
  out : after.out = before.out ++
    framesFrom N before.cipherState.key before.cipherState.nonce packets
  sent : after.sent = before.sent ++ packets
  minSize : after.minSize = before.minSize
  capacity : after.capacity = before.capacity

theorem Emits.refl (stream : MailEncryptingStream N) : Emits stream [] stream :=
  ⟨rfl, rfl, id, id, by simp [framesFrom], by simp, rfl, rfl⟩

theorem Emits.trans {first second third : MailEncryptingStream N}
    {left right : List Packet} (one : Emits first left second)
    (two : Emits second right third) : Emits first (left ++ right) third := by
  refine ⟨two.key.trans one.key, ?_, fun start => two.counter (one.counter start),
    fun start => two.fits (one.fits start), ?_, ?_, two.minSize.trans one.minSize,
    two.capacity.trans one.capacity⟩
  · rw [two.nonce, one.nonce, List.length_append, Nat.add_assoc]
  · rw [two.out, one.out, one.key, one.nonce, framesFrom_append, List.append_assoc]
  · rw [two.sent, one.sent, List.append_assoc]

theorem emits_afterPacket (stream : MailEncryptingStream N)
    (unused : stream.cipherState.nonce ≠ lastNonce)
    (room : stream.out.length + (stream.nextPacket.payloadLength + 20) ≤ stream.capacity) :
    Emits stream [stream.nextPacket] stream.afterPacket := by
  refine ⟨rfl, rfl, ?_, ?_, by simp [afterPacket, framesFrom], rfl, rfl, rfl⟩
  · intro start
    change stream.cipherState.nonce + 1 ≤ lastNonce
    omega
  · intro _
    have size := frame_length N stream.cipherState.key stream.cipherState.nonce stream.nextPacket
    change (stream.out ++ frame N _ _ _).length ≤ stream.capacity
    rw [List.length_append, size]
    exact room

theorem emits_of_writePacket {stream after : MailEncryptingStream N}
    (written : stream.writePacket = .ok after) :
    Emits stream [stream.nextPacket] after := by
  obtain ⟨unused, room, rfl⟩ := (writePacket_ok_iff stream after).mp written
  exact stream.emits_afterPacket unused room

/-! ## Splitting over `write` calls does not matter -/

theorem writeByte_of_room (stream : MailEncryptingStream N) (byte : UInt8)
    (room : stream.buffer.length + 1 < maxPacketPayloadLength) :
    stream.writeByte byte = .ok { stream with buffer := stream.buffer ++ [byte] } := by
  have notFull : ¬ stream.buffer.length + 1 = maxPacketPayloadLength := by omega
  simp [writeByte, writePacketIfBufferFull, notFull]

theorem foldlM_writeByte_chunk (chunk : Bytes) (stream : MailEncryptingStream N)
    (nonempty : chunk ≠ [])
    (room : stream.buffer.length + chunk.length ≤ maxPacketPayloadLength) :
    chunk.foldlM writeByte stream =
      { stream with buffer := stream.buffer ++ chunk }.writePacketIfBufferFull := by
  induction chunk generalizing stream with
  | nil => exact absurd rfl nonempty
  | cons byte rest ih =>
      cases rest with
      | nil =>
          rw [List.foldlM_cons, writeByte]
          simp
      | cons next rest =>
          simp only [List.length_cons] at room
          rw [List.foldlM_cons, writeByte_of_room stream byte (by omega)]
          have tail := ih { stream with buffer := stream.buffer ++ [byte] } (by simp)
            (by simp; omega)
          simp only [bind, Except.bind]
          rw [tail]
          simp

theorem room_of_writePacketIfBufferFull {stream after : MailEncryptingStream N}
    (room : stream.buffer.length ≤ maxPacketPayloadLength)
    (written : stream.writePacketIfBufferFull = .ok after) :
    after.buffer.length < maxPacketPayloadLength := by
  unfold writePacketIfBufferFull at written
  split at written
  · obtain ⟨_, _, rfl⟩ := (writePacket_ok_iff stream after).mp written
    simp [afterPacket, maxPacketPayloadLength_eq]
  · cases written
    omega

theorem writeLoop_eq_foldlM (fuel : Nat) (bytes : Bytes) (stream : MailEncryptingStream N)
    (enough : bytes.length ≤ fuel) (room : stream.buffer.length < maxPacketPayloadLength) :
    writeLoop fuel bytes stream = bytes.foldlM writeByte stream := by
  induction fuel generalizing bytes stream with
  | zero =>
      have empty : bytes = [] := List.length_eq_zero_iff.mp (by omega)
      subst empty
      rfl
  | succ fuel ih =>
      cases bytes with
      | nil => rfl
      | cons byte rest =>
          simp only [writeLoop]
          set bytes := byte :: rest with bytesEq
          set length := min bytes.length (maxPacketPayloadLength - stream.buffer.length)
            with lengthEq
          have positive : 0 < bytes.length := by simp [bytesEq]
          have taken : (bytes.take length).length = length := by simp [lengthEq]
          have chunk := foldlM_writeByte_chunk (bytes.take length) stream
            (by intro empty; rw [empty] at taken; simp at taken; omega)
            (by rw [taken]; omega)
          have whole : bytes.foldlM writeByte stream =
              (bytes.take length).foldlM writeByte stream >>= fun next =>
                (bytes.drop length).foldlM writeByte next := by
            rw [← List.foldlM_append, List.take_append_drop]
          rw [whole, chunk]
          cases step : { stream with
              buffer := stream.buffer ++ bytes.take length }.writePacketIfBufferFull with
          | error e => rfl
          | ok next =>
              have nextRoom := room_of_writePacketIfBufferFull
                (by simp only [List.length_append, taken]; omega) step
              exact ih (bytes.drop length) next
                (by simp only [List.length_drop]; omega) nextRoom

/-- Between two operations the buffer has room for at least one more byte. -/
theorem room_of_foldlM {bytes : Bytes} {stream after : MailEncryptingStream N}
    (room : stream.buffer.length < maxPacketPayloadLength)
    (run : bytes.foldlM writeByte stream = .ok after) :
    after.buffer.length < maxPacketPayloadLength := by
  induction bytes generalizing stream with
  | nil =>
      cases run
      exact room
  | cons byte rest ih =>
      rw [List.foldlM_cons] at run
      cases step : stream.writeByte byte with
      | error e => simp [step, bind, Except.bind] at run
      | ok next =>
          simp only [step, bind, Except.bind] at run
          refine ih ?_ run
          exact room_of_writePacketIfBufferFull (by simp; omega) step

end MailEncryptingStream

namespace WriteRequest

def valid : WriteRequest → Bool
  | byte _ => true
  | array bytes off len => MailEncryptingStream.inBounds bytes.length off len

/-- The bytes a request hands to the stream. -/
def written : WriteRequest → Bytes
  | byte value => [UInt8.ofNat (value % 256).toNat]
  | array bytes off len => (bytes.drop off.toNat).take len.toNat

end WriteRequest

/-- What goes through the packets: the private header behind its size, then the
body. -/
def plainBytes (privateHeader : Option Bytes) (body : Bytes) : Bytes :=
  writeInt (privateHeader.getD []).length ++ privateHeader.getD [] ++ body

namespace MailEncryptingStream

variable {N : Noise}

theorem write_eq_foldlM (stream : MailEncryptingStream N) (request : WriteRequest)
    (valid : request.valid = true) (room : stream.buffer.length < maxPacketPayloadLength) :
    stream.write request = request.written.foldlM writeByte stream := by
  cases request with
  | byte value => simp [write, WriteRequest.written]
  | array bytes off len =>
      have checked : inBounds bytes.length off len = true := valid
      simp only [write, checked, if_true]
      exact writeLoop_eq_foldlM _ _ stream le_rfl room

theorem writeAll_eq_foldlM (requests : List WriteRequest) (stream : MailEncryptingStream N)
    (valid : ∀ request ∈ requests, request.valid = true)
    (room : stream.buffer.length < maxPacketPayloadLength) :
    stream.writeAll requests = (requests.flatMap WriteRequest.written).foldlM writeByte stream := by
  induction requests generalizing stream with
  | nil => rfl
  | cons request rest ih =>
      have head := write_eq_foldlM stream request (valid request (by simp)) room
      rw [List.flatMap_cons, List.foldlM_append, writeAll, head]
      cases step : request.written.foldlM writeByte stream with
      | error e => rfl
      | ok next =>
          exact ih next (fun other member => valid other (by simp [member]))
            (room_of_foldlM room step)

/-- A run of writes that returns has handed over valid requests only. -/
theorem valid_of_writeAll {requests : List WriteRequest} {stream after : MailEncryptingStream N}
    (run : stream.writeAll requests = .ok after) :
    ∀ request ∈ requests, request.valid = true := by
  induction requests generalizing stream with
  | nil => simp
  | cons request rest ih =>
      rw [writeAll] at run
      cases step : stream.write request with
      | error e => simp [step] at run
      | ok next =>
          simp only [step] at run
          intro other member
          rcases List.mem_cons.mp member with rfl | member
          · cases other with
            | byte value => rfl
            | array bytes off len =>
                rw [write] at step
                split at step
                · assumption
                · cases step
          · exact ih run other member

theorem writePrivateHeader_eq_foldlM (stream : MailEncryptingStream N)
    (privateHeader : Option Bytes) (room : stream.buffer.length < maxPacketPayloadLength) :
    stream.writePrivateHeader privateHeader =
      (plainBytes privateHeader []).foldlM writeByte stream := by
  cases privateHeader with
  | none => simp [writePrivateHeader, MailEncryptingStream.writeInt, plainBytes]
  | some bytes =>
      simp only [writePrivateHeader, MailEncryptingStream.writeInt, plainBytes, Option.getD_some,
        List.append_nil]
      rw [List.foldlM_append]
      cases size : (Mail.writeInt bytes.length).foldlM writeByte stream with
      | error e => rfl
      | ok next =>
          have nextRoom := room_of_foldlM room size
          simp only [bind, Except.bind]
          split
          · rename_i empty
            subst empty
            rfl
          · exact writeLoop_eq_foldlM _ _ next le_rfl nextRoom

/-- The stream as the constructor leaves it before the private header. -/
def start (key : N.CipherKey) (minSize : Int) (preamble : Bytes) (capacity : Nat) :
    MailEncryptingStream N :=
  ⟨⟨key, 0⟩, [], 0, minSize, preamble, capacity, []⟩

end MailEncryptingStream

open MailEncryptingStream in
/-- A mail that is produced at all is one fold of `writeByte` over its plain
bytes, followed by `close`. -/
theorem encrypt_ok_iff {N : Noise} (destination : N.PublicKey) (header : EnclaveMailHeaderImpl)
    (privateHeader : Option Bytes) (sender : N.PrivateKey) (minSize : Int)
    (ephemeral : N.Ephemeral) (capacity : Nat) (requests : List WriteRequest)
    (final : MailEncryptingStream N) :
    encrypt destination header privateHeader sender minSize ephemeral capacity requests =
        .ok final ↔
      (∀ request ∈ requests, request.valid = true) ∧
      ∃ preamble key stream,
        handshake destination sender ephemeral header = .ok (preamble, key) ∧
        preamble.length ≤ capacity ∧
        (plainBytes privateHeader (requests.flatMap WriteRequest.written)).foldlM writeByte
          (start key minSize preamble capacity) = .ok stream ∧
        stream.close = .ok final := by
  have emptyRoom : ∀ key preamble,
      (start (N := N) key minSize preamble capacity).buffer.length < maxPacketPayloadLength := by
    intro key preamble
    simp [start, maxPacketPayloadLength_eq]
  have split : plainBytes privateHeader (requests.flatMap WriteRequest.written) =
      plainBytes privateHeader [] ++ requests.flatMap WriteRequest.written := by
    simp [plainBytes]
  unfold encrypt new
  cases hello : handshake destination sender ephemeral header with
  | error e => simp
  | ok pair =>
      obtain ⟨preamble, key⟩ := pair
      by_cases short : capacity < preamble.length
      · simp only [short, if_true, reduceCtorEq, false_iff, not_and, not_exists]
        rintro _ _ _ _ helloEq fits
        cases helloEq
        omega
      · have headerRun := writePrivateHeader_eq_foldlM (start key minSize preamble capacity)
          privateHeader (emptyRoom key preamble)
        have headerRun' : writePrivateHeader
            (⟨⟨key, 0⟩, [], 0, minSize, preamble, capacity, []⟩ : MailEncryptingStream N)
            privateHeader = (plainBytes privateHeader []).foldlM writeByte
              (start key minSize preamble capacity) := headerRun
        simp only [short, if_false, headerRun']
        simp only [split, List.foldlM_append]
        cases first : (plainBytes privateHeader []).foldlM writeByte
            (start key minSize preamble capacity) with
        | error e =>
            simp only [reduceCtorEq, false_iff, not_and, not_exists]
            rintro _ _ _ _ helloEq _ bodyRun
            cases helloEq
            simp [first, bind, Except.bind] at bodyRun
        | ok stream =>
            have room := room_of_foldlM (emptyRoom key preamble) first
            constructor
            · intro run
              cases body : stream.writeAll requests with
              | error e => simp [body] at run
              | ok written =>
                  simp only [body] at run
                  have valid := valid_of_writeAll body
                  refine ⟨valid, preamble, key, written, rfl, by omega, ?_, run⟩
                  rw [first]
                  simpa [bind, Except.bind] using
                    (writeAll_eq_foldlM requests stream valid room).symm.trans body
            · rintro ⟨valid, _, _, written, helloEq, _, bodyRun, closed⟩
              cases helloEq
              rw [first] at bodyRun
              have body : stream.writeAll requests = .ok written := by
                rw [writeAll_eq_foldlM requests stream valid room]
                simpa [bind, Except.bind] using bodyRun
              simp [body, closed]

/-! ## The invariant between the constructor and `close` -/

namespace MailEncryptingStream

variable {N : Noise}

/-- After `plain` has been written, the packets sent so far are full and hold a
prefix of it; the rest is in the buffer. -/
structure Written (initial : MailEncryptingStream N) (plain : Bytes)
    (stream : MailEncryptingStream N) : Prop where
  emits : Emits initial stream.sent stream
  user : stream.sent.flatMap Packet.userBytes ++ stream.buffer = plain
  full : ∀ packet ∈ stream.sent,
    packet.userBytes.length = maxPacketPayloadLength ∧ packet.padding = 0
  room : stream.buffer.length < maxPacketPayloadLength
  counted : stream.payloadBytesWritten =
    wrap32 ((stream.sent.length * maxPacketPayloadLength : Nat) : Int)

theorem written_start (key : N.CipherKey) (minSize : Int) (preamble : Bytes) (capacity : Nat) :
    Written (start key minSize preamble capacity) [] (start key minSize preamble capacity) :=
  ⟨Emits.refl _, rfl, by simp [start], maxPacketPayloadLength_pos, by simp [start, wrap32]⟩

theorem Written.writePacketIfBufferFull (stream : MailEncryptingStream N)
    {initial after : MailEncryptingStream N} {plain : Bytes}
    (emits : Emits initial stream.sent stream)
    (user : stream.sent.flatMap Packet.userBytes ++ stream.buffer = plain)
    (full : ∀ packet ∈ stream.sent,
      packet.userBytes.length = maxPacketPayloadLength ∧ packet.padding = 0)
    (room : stream.buffer.length ≤ maxPacketPayloadLength)
    (counted : stream.payloadBytesWritten =
      wrap32 ((stream.sent.length * maxPacketPayloadLength : Nat) : Int))
    (step : stream.writePacketIfBufferFull = .ok after) :
    Written initial plain after := by
  have nextRoom := room_of_writePacketIfBufferFull room step
  unfold MailEncryptingStream.writePacketIfBufferFull at step
  split at step
  · rename_i bufferFull
    obtain ⟨unused, room, rfl⟩ := (writePacket_ok_iff stream after).mp step
    have noPadding : stream.nextPacket.padding = 0 := by
      have bound := stream.nextPacket_padding_le
      omega
    have bytes : stream.nextPacket.userBytes = stream.buffer := rfl
    have payload : stream.nextPacket.payloadLength = maxPacketPayloadLength := by
      rw [Packet.payloadLength, noPadding, bytes]
      exact bufferFull
    have sent : stream.afterPacket.sent = stream.sent ++ [stream.nextPacket] := rfl
    refine ⟨emits.trans (stream.emits_afterPacket unused room), ?_, ?_, nextRoom, ?_⟩
    · have buffer : stream.afterPacket.buffer = [] := rfl
      simp only [sent, buffer, List.flatMap_append, List.flatMap_cons, List.flatMap_nil,
        List.append_nil, bytes]
      exact user
    · intro packet member
      rcases List.mem_append.mp member with old | new
      · exact full packet old
      · rw [List.mem_singleton.mp new]
        exact ⟨bufferFull, noPadding⟩
    · have written : stream.afterPacket.payloadBytesWritten =
          wrap32 (stream.payloadBytesWritten + stream.nextPacket.payloadLength) := rfl
      have total : ((stream.sent.length + 1) * maxPacketPayloadLength : Nat) =
          ((stream.sent.length * maxPacketPayloadLength : Nat) : Int) +
            (maxPacketPayloadLength : Nat) := by
        rw [Nat.succ_mul]
        exact Int.natCast_add _ _
      rw [written, payload, counted, wrap32_wrap32_add, sent, List.length_append,
        List.length_singleton, total]
  · cases step
    exact ⟨emits, user, full, nextRoom, counted⟩

theorem Written.writeByte {initial stream after : MailEncryptingStream N} {plain : Bytes}
    {byte : UInt8} (before : Written initial plain stream)
    (step : stream.writeByte byte = .ok after) :
    Written initial (plain ++ [byte]) after := by
  have room := before.room
  have emits := before.emits
  refine Written.writePacketIfBufferFull { stream with buffer := stream.buffer ++ [byte] }
    ⟨emits.key, emits.nonce, emits.counter, emits.fits, emits.out, emits.sent, emits.minSize,
      emits.capacity⟩ ?_
    before.full ?_ before.counted step
  · simp only [← before.user, List.append_assoc]
  · simp only [List.length_append, List.length_singleton]
    omega

theorem Written.foldlM {initial stream after : MailEncryptingStream N} {plain bytes : Bytes}
    (before : Written initial plain stream)
    (run : bytes.foldlM MailEncryptingStream.writeByte stream = .ok after) :
    Written initial (plain ++ bytes) after := by
  induction bytes generalizing stream plain with
  | nil =>
      cases run
      simpa using before
  | cons byte rest ih =>
      rw [List.foldlM_cons] at run
      cases step : stream.writeByte byte with
      | error e => simp [step, bind, Except.bind] at run
      | ok next =>
          simp only [step, bind, Except.bind] at run
          have tail := ih (before.writeByte step) run
          simpa using tail

/-! ## Closing -/

/-- A padding packet that adds nothing leaves the loop where it was, so the
loop cannot return. -/
theorem padToMinSize_stuck (fuel : Nat) (stream after : MailEncryptingStream N)
    (empty : stream.buffer = []) (below : stream.payloadBytesWritten < stream.minSize)
    (inRange : wrap32 stream.payloadBytesWritten = stream.payloadBytesWritten)
    (noPadding : stream.nextPacket.padding = 0) :
    padToMinSize fuel stream ≠ .ok after := by
  induction fuel generalizing stream with
  | zero => simp [padToMinSize]
  | succ fuel ih =>
      rw [padToMinSize, if_pos below]
      cases step : stream.writePacket with
      | error e => simp
      | ok next =>
          obtain ⟨_, _, rfl⟩ := (writePacket_ok_iff stream next).mp step
          have payload : stream.nextPacket.payloadLength = 0 := by
            have bytes : stream.nextPacket.userBytes = stream.buffer := rfl
            simp [Packet.payloadLength, noPadding, bytes, empty]
          have written : stream.afterPacket.payloadBytesWritten =
              stream.payloadBytesWritten := by
            simp [afterPacket, payload, inRange]
          have size : stream.afterPacket.minSize = stream.minSize := rfl
          have buffer : stream.afterPacket.buffer = stream.buffer := by rw [empty]; rfl
          refine ih stream.afterPacket rfl (by rw [written, size]; exact below)
            (by rw [written]; exact inRange) ?_
          rw [← noPadding]
          simp only [nextPacket, written, size, buffer]

theorem padToMinSize_shape (fuel : Nat) (stream after : MailEncryptingStream N)
    (empty : stream.buffer = [])
    (inRange : wrap32 stream.payloadBytesWritten = stream.payloadBytesWritten)
    (run : padToMinSize fuel stream = .ok after) :
    ∃ pads, Emits stream pads after ∧ after.buffer = [] ∧
      wrap32 after.payloadBytesWritten = after.payloadBytesWritten ∧
      after.minSize ≤ after.payloadBytesWritten ∧
      ∀ packet ∈ pads, packet.userBytes = [] ∧ 0 < packet.padding ∧
        packet.padding ≤ maxPacketPayloadLength := by
  induction fuel generalizing stream with
  | zero => simp [padToMinSize] at run
  | succ fuel ih =>
      by_cases below : stream.payloadBytesWritten < stream.minSize
      · have progress : 0 < stream.nextPacket.padding := by
          by_contra none
          exact padToMinSize_stuck (fuel + 1) stream after empty below inRange (by omega) run
        rw [padToMinSize, if_pos below] at run
        cases step : stream.writePacket with
        | error e => simp [step] at run
        | ok next =>
            simp only [step] at run
            obtain ⟨unused, room, rfl⟩ := (writePacket_ok_iff stream next).mp step
            obtain ⟨pads, emits, buffer, range, done, shape⟩ :=
              ih stream.afterPacket rfl (by simp [afterPacket]) run
            refine ⟨stream.nextPacket :: pads, (stream.emits_afterPacket unused room).trans emits,
              buffer, range, done, ?_⟩
            intro packet member
            rcases List.mem_cons.mp member with first | member
            · have bound := stream.nextPacket_padding_le
              rw [first]
              exact ⟨empty, progress, by omega⟩
            · exact shape packet member
      · rw [padToMinSize, if_neg below] at run
        cases run
        exact ⟨[], Emits.refl _, empty, inRange, by omega, by simp⟩

/-- Once `minSize` is reached, an empty buffer makes an empty packet. -/
theorem nextPacket_terminator {stream : MailEncryptingStream N} (empty : stream.buffer = [])
    (inRange : wrap32 stream.payloadBytesWritten = stream.payloadBytesWritten)
    (done : stream.minSize ≤ stream.payloadBytesWritten) (nonnegative : 0 ≤ stream.minSize) :
    stream.nextPacket = Packet.terminator := by
  have range := wrap32_range stream.payloadBytesWritten
  rw [inRange] at range
  have exact : wrap32 (stream.minSize - stream.payloadBytesWritten) =
      stream.minSize - stream.payloadBytesWritten := wrap32_of_range (by omega) (by omega)
  have none : coerceIn (stream.minSize - stream.payloadBytesWritten) 0
      ((maxPacketPayloadLength - stream.buffer.length : Nat) : Int) = 0 := by
    unfold coerceIn
    omega
  simp only [nextPacket, exact, Packet.terminator, Packet.mk.injEq]
  exact ⟨empty, by rw [none]; rfl⟩

/-- The packets of a finished mail: non-empty ones that carry the plain bytes,
then one last packet without user bytes. -/
structure Finished (initial : MailEncryptingStream N) (plain : Bytes) (packets : List Packet)
    (last : Packet) (stream : MailEncryptingStream N) : Prop where
  emits : Emits initial (packets ++ [last]) stream
  user : packets.flatMap Packet.userBytes = plain
  nonempty : ∀ packet ∈ packets, 0 < packet.payloadLength
  lastEmpty : last.userBytes = []
  terminator : 0 ≤ initial.minSize → last = Packet.terminator
  bounded : ∀ packet ∈ packets ++ [last], packet.payloadLength ≤ maxPacketPayloadLength

theorem Written.flush {initial stream after : MailEncryptingStream N} {plain : Bytes}
    (before : Written initial plain stream) (run : stream.flush = .ok after) :
    ∃ packets, Emits initial packets after ∧ packets.flatMap Packet.userBytes = plain ∧
      after.buffer = [] ∧ wrap32 after.payloadBytesWritten = after.payloadBytesWritten ∧
      ∀ packet ∈ packets, 0 < packet.payloadLength ∧
        packet.payloadLength ≤ maxPacketPayloadLength := by
  have fullBound : ∀ packet ∈ stream.sent, 0 < packet.payloadLength ∧
      packet.payloadLength ≤ maxPacketPayloadLength := by
    intro packet member
    obtain ⟨size, padding⟩ := before.full packet member
    rw [Packet.payloadLength, size, padding]
    exact ⟨by simpa using maxPacketPayloadLength_pos, by omega⟩
  have room := before.room
  unfold MailEncryptingStream.flush at run
  split at run
  · rename_i nonempty
    obtain ⟨unused, room, rfl⟩ := (writePacket_ok_iff stream after).mp run
    refine ⟨stream.sent ++ [stream.nextPacket],
      before.emits.trans (stream.emits_afterPacket unused room), ?_, rfl, by simp [afterPacket], ?_⟩
    · rw [List.flatMap_append, ← before.user]
      simp [nextPacket]
    · intro packet member
      rcases List.mem_append.mp member with old | new
      · exact fullBound packet old
      · rw [List.mem_singleton.mp new]
        have bytes : stream.nextPacket.userBytes = stream.buffer := rfl
        refine ⟨?_, stream.nextPacket_payloadLength_le (by omega)⟩
        rw [Packet.payloadLength, bytes]
        omega
  · rename_i isEmpty
    cases run
    have buffer : stream.buffer = [] := List.length_eq_zero_iff.mp (by omega)
    have user := before.user
    rw [buffer, List.append_nil] at user
    exact ⟨stream.sent, before.emits, user, buffer, by rw [before.counted]; simp, fullBound⟩

theorem Written.close {initial stream after : MailEncryptingStream N} {plain : Bytes}
    (before : Written initial plain stream) (run : stream.close = .ok after) :
    ∃ packets last, Finished initial plain packets last after := by
  unfold MailEncryptingStream.close at run
  cases flushed : stream.flush with
  | error e => simp [flushed] at run
  | ok first =>
      simp only [flushed] at run
      obtain ⟨packets, emits, user, empty, inRange, sizes⟩ := before.flush flushed
      cases padded : padToMinSize (first.capacity + 1) first with
      | error e => simp [padded] at run
      | ok second =>
          simp only [padded] at run
          obtain ⟨pads, padEmits, padEmpty, padRange, done, padSizes⟩ :=
            padToMinSize_shape _ first second empty inRange padded
          have padPayload : ∀ packet ∈ pads, 0 < packet.payloadLength ∧
              packet.payloadLength ≤ maxPacketPayloadLength := by
            intro packet member
            obtain ⟨bytes, positive, bound⟩ := padSizes packet member
            simpa [Packet.payloadLength, bytes] using ⟨positive, bound⟩
          have padUser : pads.flatMap Packet.userBytes = [] := by
            rw [List.flatMap_eq_nil_iff]
            exact fun packet member => (padSizes packet member).1
          obtain ⟨unused, room, rfl⟩ := (writePacket_ok_iff second after).mp run
          have nonempty : ∀ packet ∈ packets ++ pads, 0 < packet.payloadLength ∧
              packet.payloadLength ≤ maxPacketPayloadLength := by
            intro packet member
            rcases List.mem_append.mp member with one | two
            · exact sizes packet one
            · exact padPayload packet two
          refine ⟨packets ++ pads, second.nextPacket,
            (emits.trans padEmits).trans (second.emits_afterPacket unused room), ?_,
            fun packet member => (nonempty packet member).1, padEmpty, ?_, ?_⟩
          · rw [List.flatMap_append, user, padUser, List.append_nil]
          · intro nonnegative
            have size : second.minSize = initial.minSize :=
              padEmits.minSize.trans emits.minSize
            exact nextPacket_terminator padEmpty padRange done (by omega)
          · intro packet member
            rcases List.mem_append.mp member with one | two
            · exact (nonempty packet one).2
            · rw [List.mem_singleton.mp two]
              exact second.nextPacket_payloadLength_le (by simp [padEmpty])

end MailEncryptingStream

/-! ## A finished mail -/

/-- The bytes of a mail, taken apart. -/
structure MailLayout {N : Noise} (destination : N.PublicKey) (header : EnclaveMailHeaderImpl)
    (sender : N.PrivateKey) (ephemeral : N.Ephemeral) (minSize : Int) (plain : Bytes)
    (mail : MailEncryptingStream N) where
  prologue : Bytes
  packets : List Packet
  last : Packet
  computed : computePrologue .senderKeyTransmittedV2 header = .ok prologue
  out : mail.out = writeShort prologue.length ++ prologue ++
    (N.writeMessage destination sender ephemeral prologue [0]).1 ++
      framesFrom N (N.writeMessage destination sender ephemeral prologue [0]).2 0
        (packets ++ [last])
  sent : mail.sent = packets ++ [last]
  user : packets.flatMap Packet.userBytes = plain
  nonempty : ∀ packet ∈ packets, 0 < packet.payloadLength
  lastEmpty : last.userBytes = []
  terminator : 0 ≤ minSize → last = Packet.terminator
  bounded : ∀ packet ∈ packets ++ [last], packet.payloadLength ≤ maxPacketPayloadLength
  counter : packets.length + 1 ≤ lastNonce

open MailEncryptingStream in
theorem encrypt_layout {N : Noise} {destination : N.PublicKey} {header : EnclaveMailHeaderImpl}
    {privateHeader : Option Bytes} {sender : N.PrivateKey} {minSize : Int}
    {ephemeral : N.Ephemeral} {capacity : Nat} {requests : List WriteRequest}
    {mail : MailEncryptingStream N}
    (run : encrypt destination header privateHeader sender minSize ephemeral capacity requests =
      .ok mail) :
    Nonempty (MailLayout destination header sender ephemeral minSize
      (plainBytes privateHeader (requests.flatMap WriteRequest.written)) mail) := by
  obtain ⟨_, preamble, key, stream, hello, _, body, closed⟩ :=
    (encrypt_ok_iff destination header privateHeader sender minSize ephemeral capacity requests
      mail).mp run
  have written := (written_start key minSize preamble capacity).foldlM body
  rw [List.nil_append] at written
  obtain ⟨packets, last, finished⟩ := written.close closed
  unfold handshake at hello
  cases computed : computePrologue .senderKeyTransmittedV2 header with
  | error e => simp [computed] at hello
  | ok prologue =>
      simp only [computed, Except.ok.injEq, Prod.mk.injEq] at hello
      obtain ⟨rfl, rfl⟩ := hello
      have counter := finished.emits.counter (Nat.zero_le _)
      rw [finished.emits.nonce] at counter
      refine ⟨⟨prologue, packets, last, computed, finished.emits.out, ?_, finished.user,
        finished.nonempty, finished.lastEmpty, finished.terminator, finished.bounded, ?_⟩⟩
      · rw [finished.emits.sent]
        rfl
      · simpa [start] using counter

end Conclave.Mail
