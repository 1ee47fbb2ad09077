import ConclaveFormal.Mail.PacketReader

/-!
# What the decrypting stream still has to give

`Yields stream bytes ending` says that the stream, in its current state, will
hand out `bytes` and then stop at the terminator or at the exception of a
packet it rejects.  It is defined by the stream's own packet step, so it holds
for honest and for adversarial inputs alike; the readers are then described by
`bytes` and `ending` alone, however the bytes are spread over packets.
-/

set_option autoImplicit false

namespace Conclave.Mail

open Conclave.Lib

/-- Where the user bytes stop.  A rejected packet leaves the stream in `after`. -/
inductive Ending (N : Noise) where
  | terminator
  | failure (e : StreamException) (after : MailDecryptingStream N)

def Ending.map {N : Noise} (change : MailDecryptingStream N → MailDecryptingStream N) :
    Ending N → Ending N
  | .terminator => .terminator
  | .failure e after => .failure e (change after)

namespace MailDecryptingStream

open Attempt

variable {N : Noise}

def advance (stream : MailDecryptingStream N) (count : Nat) : MailDecryptingStream N :=
  { stream with currentUserBytesIndex := stream.currentUserBytesIndex + count }

inductive Yields : MailDecryptingStream N → Bytes → Ending N → Prop
  | terminator {stream : MailDecryptingStream N}
      (index : stream.currentUserBytesIndex = -1) (length : stream.currentUserBytesLength = 0) :
      Yields stream [] .terminator
  | rejected {stream after : MailDecryptingStream N} {e : StreamException}
      (drained : stream.currentUserBytesIndex = stream.currentUserBytesLength)
      (thrown : readNextPacket stream = (.error e, after)) :
      Yields stream [] (.failure e after)
  | accepted {stream after : MailDecryptingStream N} {bytes : Bytes} {ending : Ending N}
      (drained : stream.currentUserBytesIndex = stream.currentUserBytesLength)
      (returned : readNextPacket stream = (.ok (), after)) (rest : Yields after bytes ending) :
      Yields stream bytes ending
  | byte {stream : MailDecryptingStream N} {bytes : Bytes} {ending : Ending N}
      (low : 0 ≤ stream.currentUserBytesIndex)
      (high : stream.currentUserBytesIndex < stream.currentUserBytesLength)
      (bound : stream.currentUserBytesLength ≤ maxPacketPlaintextLength)
      (rest : Yields (stream.advance 1) bytes ending) :
      Yields stream
        (stream.currentDecryptedBuffer.getD stream.currentUserBytesIndex.toNat 0 :: bytes) ending

/-- There is an unread user byte in the buffer. -/
structure Ready (stream : MailDecryptingStream N) : Prop where
  low : 0 ≤ stream.currentUserBytesIndex
  high : stream.currentUserBytesIndex < stream.currentUserBytesLength
  bound : stream.currentUserBytesLength ≤ maxPacketPlaintextLength

theorem advance_keeps (stream : MailDecryptingStream N) (count : Nat) :
    Keeps stream (stream.advance count) :=
  ⟨⟨rfl, rfl, fun _ known => known, le_rfl⟩,
    fun _ established => ⟨rfl, by simp [advance, established]⟩⟩

/-- The private header is no part of what is left to read. -/
theorem Yields.withPrivateHeader {stream : MailDecryptingStream N} {bytes : Bytes}
    {ending : Ending N} (yields : Yields stream bytes ending) (privateHeader : Option Bytes)
    (privateHeaderRead : Bool) :
    Yields (stream.withPrivateHeader privateHeader privateHeaderRead) bytes
      (ending.map (MailDecryptingStream.withPrivateHeader privateHeader privateHeaderRead)) := by
  have ignores := readNextPacket_ignores (N := N) privateHeader privateHeaderRead
  induction yields with
  | terminator index length => exact Yields.terminator index length
  | @rejected stream after e drained thrown =>
      refine Yields.rejected drained ?_
      rw [ignores stream, thrown]
  | @accepted stream after bytes ending drained returned rest ih =>
      refine Yields.accepted drained ?_ ih
      rw [ignores stream, returned]
  | byte low high bound rest ih => exact Yields.byte low high bound ih

/-! ## Every session yields something -/

/-- The cursor is inside the buffer or behind the terminator. -/
def Settled (stream : MailDecryptingStream N) : Prop :=
  (stream.currentUserBytesIndex = -1 ∧ stream.currentUserBytesLength = 0) ∨
  (0 ≤ stream.currentUserBytesIndex ∧
    stream.currentUserBytesIndex ≤ stream.currentUserBytesLength ∧
    stream.currentUserBytesLength ≤ maxPacketPlaintextLength)

theorem settled_of_accepted {stream after : MailDecryptingStream N} {cipherState : CipherState N}
    (session : stream.cipherState = some cipherState)
    (accepted : readNextPacket stream = (.ok (), after)) : Settled after := by
  obtain ⟨b1, b2, rest, plaintext, _, _, available, _, decrypted, _, fits, rfl⟩ :=
    readNextPacket_accepted session accepted
  have high := b1.toNat_lt
  have low := b2.toNat_lt
  have size := N.decrypt_length _ _ _ _ decrypted
  rw [List.length_take, macLength_eq] at size
  have room : readShort plaintext (plaintext.length - 2) ≤ maxPacketPlaintextLength := by
    rw [maxPacketPlaintextLength_eq]
    omega
  by_cases empty : plaintext.length - 2 = 0
  · refine Or.inl ⟨if_pos empty, ?_⟩
    change ((readShort plaintext (plaintext.length - 2) : Nat) : Int) = 0
    omega
  · right
    simp only [if_neg empty]
    exact ⟨le_rfl, by omega, by exact_mod_cast room⟩

/-- The stream ends at the terminator or at a rejected packet: every packet
uses up input. -/
theorem exists_yields (size : Nat) {stream : MailDecryptingStream N}
    {cipherState : CipherState N} (session : stream.cipherState = some cipherState)
    (settled : Settled stream) (bound : stream.input.length ≤ size) :
    ∃ bytes ending, Yields stream bytes ending := by
  induction size using Nat.strong_induction_on generalizing stream cipherState with
  | _ size ih =>
      rcases settled with ⟨index, length⟩ | ⟨low, high, inside⟩
      · exact ⟨[], .terminator, Yields.terminator index length⟩
      · -- First the packets behind the buffer, then what is left in the buffer.
        obtain ⟨count, countEq⟩ : ∃ count : Nat,
            stream.currentUserBytesIndex + count = stream.currentUserBytesLength :=
          ⟨(stream.currentUserBytesLength - stream.currentUserBytesIndex).toNat, by omega⟩
        clear high
        induction count generalizing stream with
        | zero =>
            have drained : stream.currentUserBytesIndex = stream.currentUserBytesLength := by
              simpa using countEq
            cases ran : readNextPacket stream with
            | mk outcome after =>
                cases outcome with
                | error e => exact ⟨[], .failure e after, Yields.rejected drained ran⟩
                | ok value =>
                    obtain ⟨consumed, isSome⟩ := readNextPacket_consumes ran
                    obtain ⟨next, session'⟩ := Option.isSome_iff_exists.mp isSome
                    obtain ⟨bytes, ending, yields⟩ := ih after.input.length (by omega) session'
                      (settled_of_accepted session ran) le_rfl
                    exact ⟨bytes, ending, Yields.accepted drained ran yields⟩
        | succ count inner =>
            push_cast at countEq
            have advanced : (stream.advance 1).cipherState = some cipherState := session
            obtain ⟨bytes, ending, yields⟩ := inner advanced
              (by simpa [advance] using bound) (by simp only [advance]; omega)
              (by simpa [advance] using inside)
              (by simp only [advance]; push_cast; omega)
            exact ⟨_, ending, Yields.byte low (by omega) inside yields⟩

/-! ## Finding the next byte -/

theorem Yields.ensure_byte {stream : MailDecryptingStream N} {byte : UInt8} {bytes : Bytes}
    {ending : Ending N} (yields : Yields stream (byte :: bytes) ending) :
    ∃ after, ensureAvailablePacket stream = (.ok true, after) ∧ Keeps stream after ∧
      Ready after ∧ Yields after (byte :: bytes) ending := by
  generalize expected : byte :: bytes = all at yields
  induction yields with
  | terminator => cases expected
  | rejected => cases expected
  | @accepted stream middle all ending drained returned rest ih =>
      obtain ⟨after, ran, kept, ready, yields⟩ := ih expected
      have first := readNextPacket_keeps stream
      rw [returned] at first
      exact ⟨after, (ensureAvailablePacket_accepted drained returned).trans ran,
        Keeps.trans first kept, ready, yields⟩
  | @byte stream rest ending low high bound tail ih =>
      refine ⟨stream, ?_, Keeps.refl stream, ⟨low, high, bound⟩, ?_⟩
      · rw [ensureAvailablePacket_ready (by omega)]
        have notEnd : (stream.currentUserBytesIndex != -1) = true := by
          simp only [bne_iff_ne, ne_eq]
          omega
        rw [notEnd]
      · exact Yields.byte low high bound tail

theorem Yields.ensure_end {stream : MailDecryptingStream N}
    (yields : Yields stream [] .terminator) :
    ∃ after, ensureAvailablePacket stream = (.ok false, after) ∧ Keeps stream after ∧
      Yields after [] .terminator := by
  generalize expected : ([] : Bytes) = all at yields
  generalize last : (Ending.terminator : Ending N) = ending at yields
  induction yields with
  | @terminator stream index length =>
      refine ⟨stream, ?_, Keeps.refl stream, Yields.terminator index length⟩
      rw [ensureAvailablePacket_ready (by omega), index]
      rfl
  | rejected => cases last
  | @accepted stream middle all ending drained returned rest ih =>
      obtain ⟨after, ran, kept, yields⟩ := ih expected last
      have first := readNextPacket_keeps stream
      rw [returned] at first
      exact ⟨after, (ensureAvailablePacket_accepted drained returned).trans ran,
        Keeps.trans first kept, yields⟩
  | byte => cases expected

theorem Yields.ensure_failure {stream after : MailDecryptingStream N} {e : StreamException}
    (yields : Yields stream [] (.failure e after)) :
    ensureAvailablePacket stream = (.error e, after) := by
  generalize expected : ([] : Bytes) = all at yields
  generalize last : Ending.failure e after = ending at yields
  induction yields with
  | terminator => cases last
  | rejected drained thrown =>
      cases last
      exact ensureAvailablePacket_rejected drained thrown
  | accepted drained returned rest ih =>
      exact (ensureAvailablePacket_accepted drained returned).trans (ih expected last)
  | byte => cases expected

/-! ## Single bytes -/

theorem Yields.readUserByte_byte {stream : MailDecryptingStream N} {byte : UInt8} {bytes : Bytes}
    {ending : Ending N} (yields : Yields stream (byte :: bytes) ending) :
    ∃ after, readUserByte stream = (.ok (some byte), after) ∧ Keeps stream after ∧
      Yields after bytes ending := by
  obtain ⟨middle, ran, kept, ready, yields⟩ := yields.ensure_byte
  have low := ready.low
  have high := ready.high
  have bound := ready.bound
  cases yields with
  | accepted drained => omega
  | byte _ _ _ rest =>
      refine ⟨middle.advance 1, ?_, Keeps.trans kept (middle.advance_keeps 1), rest⟩
      have inside : 0 ≤ middle.currentUserBytesIndex ∧
          middle.currentUserBytesIndex < maxPacketPlaintextLength := ⟨low, by omega⟩
      have next : wrap32 (middle.currentUserBytesIndex + 1) =
          middle.currentUserBytesIndex + 1 := by
        rw [maxPacketPlaintextLength_eq] at inside
        exact wrap32_of_range (by omega) (by omega)
      have took : takeByte middle =
          (.ok (middle.currentDecryptedBuffer.getD middle.currentUserBytesIndex.toNat 0),
            middle.advance 1) := by
        simp only [takeByte, if_pos inside, next]
        rfl
      unfold readUserByte
      rw [bind_ok ran, if_pos rfl, bind_ok took]
      rfl

theorem Yields.readUserByte_end {stream : MailDecryptingStream N}
    (yields : Yields stream [] .terminator) :
    ∃ after, readUserByte stream = (.ok none, after) ∧ Keeps stream after ∧
      Yields after [] .terminator := by
  obtain ⟨after, ran, kept, yields⟩ := yields.ensure_end
  refine ⟨after, ?_, kept, yields⟩
  unfold readUserByte
  rw [bind_ok ran]
  rfl

theorem Yields.readUserByte_failure {stream after : MailDecryptingStream N} {e : StreamException}
    (yields : Yields stream [] (.failure e after)) :
    readUserByte stream = (.error e, after) :=
  bind_error yields.ensure_failure

/-! ## Blocks -/

/-- What is in the buffer can be skipped as a block. -/
theorem Yields.skip {stream : MailDecryptingStream N} {bytes : Bytes} {ending : Ending N}
    (yields : Yields stream bytes ending) (count : Nat)
    (low : 0 ≤ stream.currentUserBytesIndex)
    (high : stream.currentUserBytesIndex + count ≤ stream.currentUserBytesLength) :
    count ≤ bytes.length ∧ Yields (stream.advance count) (bytes.drop count) ending ∧
      bytes.take count = (List.range count).map fun k =>
        stream.currentDecryptedBuffer.getD (stream.currentUserBytesIndex.toNat + k) 0 := by
  induction count generalizing stream bytes with
  | zero => simpa [advance] using yields
  | succ count ih =>
      cases yields with
      | terminator index length => omega
      | rejected drained => omega
      | accepted drained => omega
      | @byte _ rest _ _ _ bound tail =>
          have index : (stream.advance 1).currentUserBytesIndex =
              stream.currentUserBytesIndex + 1 := rfl
          have length : (stream.advance 1).currentUserBytesLength =
              stream.currentUserBytesLength := rfl
          obtain ⟨enough, yields, taken⟩ := ih tail (by omega) (by rw [index, length]; omega)
          have twice : (stream.advance 1).advance count = stream.advance (count + 1) := by
            unfold advance
            congr 1
            push_cast
            ring
          rw [twice] at yields
          refine ⟨by simpa using enough, yields, ?_⟩
          have buffer : (stream.advance 1).currentDecryptedBuffer =
              stream.currentDecryptedBuffer := rfl
          have shift : (stream.currentUserBytesIndex + 1).toNat =
              stream.currentUserBytesIndex.toNat + 1 := by omega
          rw [List.take_succ_cons, taken, List.range_succ_eq_map, List.map_cons, List.map_map,
            index, buffer, shift]
          simp [Function.comp_def, Nat.add_assoc, Nat.add_comm 1]

/-- The outcome of asking for `wanted` bytes: as many of them as there are, or
the exception that stands between the stream and the rest of them. -/
def Delivers (stream : MailDecryptingStream N) (bytes : Bytes) (ending : Ending N)
    (wanted : Nat) (outcome : Except StreamException Bytes × MailDecryptingStream N) : Prop :=
  (∃ after, outcome = (.ok (bytes.take wanted), after) ∧ Keeps stream after ∧
    Yields after (bytes.drop wanted) ending ∧
    (wanted ≤ bytes.length ∨ ending = .terminator)) ∨
  (bytes.length < wanted ∧ ∃ e after, ending = .failure e after ∧ outcome = (.error e, after))

theorem Yields.copyLoop {stream : MailDecryptingStream N} {bytes : Bytes} {ending : Ending N}
    (yields : Yields stream bytes ending) (fuel wanted : Nat) (positive : 0 < wanted)
    (enough : wanted ≤ fuel) :
    Delivers stream bytes ending wanted (copyLoop fuel wanted stream) := by
  induction fuel generalizing stream bytes wanted with
  | zero => omega
  | succ fuel ih =>
      rw [MailDecryptingStream.copyLoop]
      cases bytes with
      | nil =>
          cases ending with
          | terminator =>
              obtain ⟨after, ran, kept, yields⟩ := yields.ensure_end
              rw [bind_ok ran]
              exact Or.inl ⟨after, by simp, kept, by simpa using yields, Or.inr rfl⟩
          | failure e after =>
              rw [bind_error yields.ensure_failure]
              exact Or.inr ⟨by simpa using positive, e, after, rfl, rfl⟩
      | cons byte bytes =>
          obtain ⟨middle, ran, kept, ready, yields⟩ := yields.ensure_byte
          have low := ready.low
          have high := ready.high
          have bound := ready.bound
          rw [bind_ok ran, if_pos rfl, get_bind]
          generalize lengthEq : min
            (middle.currentUserBytesLength - middle.currentUserBytesIndex) (wanted : Int) = length
          obtain ⟨available, rest, taken⟩ := yields.skip length.toNat low (by omega)
          have copied : copyOut length middle =
              (.ok ((byte :: bytes).take length.toNat), middle.advance length.toNat) := by
            have inside : ¬ (middle.currentUserBytesIndex < 0 ∨ length < 0 ∨
                maxPacketPlaintextLength < middle.currentUserBytesIndex + length) := by omega
            have cast : (length.toNat : Int) = length := by omega
            simp only [copyOut, if_neg inside, taken, advance, cast]
          have size : ((byte :: bytes).take length.toNat).length = length.toNat := by
            rw [List.length_take]
            omega
          rw [bind_ok copied, size]
          have kept := Keeps.trans kept (middle.advance_keeps length.toNat)
          by_cases all : length.toNat = wanted
          · rw [if_pos all]
            rw [all] at rest available kept ⊢
            exact Or.inl ⟨_, rfl, kept, rest, Or.inl available⟩
          · rw [if_neg all]
            have split := List.take_add (l := byte :: bytes) (i := length.toNat)
              (j := wanted - length.toNat)
            have total : length.toNat + (wanted - length.toNat) = wanted := by omega
            rw [total] at split
            rcases ih rest (wanted - length.toNat) (by omega) (by omega) with
              ⟨after, loop, keptLoop, yieldsLoop, complete⟩ | ⟨short, e, after, failed, loop⟩
            · rw [bind_ok loop]
              refine Or.inl ⟨after, ?_, Keeps.trans kept keptLoop, ?_, ?_⟩
              · rw [split]
                rfl
              · rwa [List.drop_drop, total] at yieldsLoop
              · rw [List.length_drop] at complete
                exact complete.imp (fun fits => by omega) id
            · rw [bind_error loop]
              rw [List.length_drop] at short
              exact Or.inr ⟨by omega, e, after, failed, rfl⟩

theorem Yields.readUserBytes {stream : MailDecryptingStream N} {bytes : Bytes}
    {ending : Ending N} (yields : Yields stream bytes ending) (wanted : Nat)
    (positive : 0 < wanted) :
    Delivers stream bytes ending wanted (readUserBytes wanted stream) :=
  yields.copyLoop wanted wanted positive le_rfl

/-! ## The private header -/

theorem Yields.readHeaderByte_byte {stream : MailDecryptingStream N} {byte : UInt8}
    {bytes : Bytes} {ending : Ending N} (yields : Yields stream (byte :: bytes) ending) :
    ∃ after, readHeaderByte stream = (.ok byte.toNat, after) ∧ Keeps stream after ∧
      Yields after bytes ending := by
  obtain ⟨after, ran, kept, yields⟩ := yields.readUserByte_byte
  exact ⟨after, bind_ok ran, kept, yields⟩

theorem Yields.readHeaderByte_end {stream : MailDecryptingStream N}
    (yields : Yields stream [] .terminator) :
    ∃ after, readHeaderByte stream = (.ok 255, after) ∧ Keeps stream after ∧
      Yields after [] .terminator := by
  obtain ⟨after, ran, kept, yields⟩ := yields.readUserByte_end
  exact ⟨after, bind_ok ran, kept, yields⟩

theorem Yields.readHeaderByte_failure {stream after : MailDecryptingStream N}
    {e : StreamException} (yields : Yields stream [] (.failure e after)) :
    readHeaderByte stream = (.error e, after) :=
  bind_error yields.readUserByte_failure

/-- One byte of the size: the next one, or `0xFF` at the end of the stream. -/
theorem Yields.readHeaderByte {stream : MailDecryptingStream N} {bytes : Bytes}
    {ending : Ending N} (yields : Yields stream bytes ending) :
    (∃ after, readHeaderByte stream = (.ok ((bytes.head?.map UInt8.toNat).getD 255), after) ∧
      Keeps stream after ∧ Yields after bytes.tail ending ∧
      (bytes ≠ [] ∨ ending = .terminator)) ∨
    (bytes = [] ∧ ∃ e after, ending = .failure e after ∧
      readHeaderByte stream = (.error e, after)) := by
  cases bytes with
  | cons byte bytes =>
      obtain ⟨after, ran, kept, yields⟩ := yields.readHeaderByte_byte
      exact Or.inl ⟨after, ran, kept, yields, Or.inl (by simp)⟩
  | nil =>
      cases ending with
      | terminator =>
          obtain ⟨after, ran, kept, yields⟩ := yields.readHeaderByte_end
          exact Or.inl ⟨after, ran, kept, yields, Or.inr rfl⟩
      | failure e after =>
          exact Or.inr ⟨rfl, e, after, rfl, yields.readHeaderByte_failure⟩

/-- The size that `readInt` makes of the first four bytes. -/
def headerSize (bytes : Bytes) : Int :=
  let byte (k : Nat) : Nat := (bytes[k]?.map UInt8.toNat).getD 255
  wrap32 ((byte 0 * 256 ^ 3 + byte 1 * 256 ^ 2 + byte 2 * 256 + byte 3 : Nat) : Int)

theorem Yields.readInt {stream : MailDecryptingStream N} {bytes : Bytes} {ending : Ending N}
    (yields : Yields stream bytes ending) :
    (∃ after, readInt stream = (.ok (headerSize bytes), after) ∧ Keeps stream after ∧
      Yields after (bytes.drop 4) ending ∧ (4 ≤ bytes.length ∨ ending = .terminator)) ∨
    (bytes.length < 4 ∧ ∃ e after, ending = .failure e after ∧
      readInt stream = (.error e, after)) := by
  unfold MailDecryptingStream.readInt
  rcases yields.readHeaderByte with ⟨s1, r1, k1, y1, c1⟩ | ⟨empty, e, after, failed, ran⟩
  · rcases y1.readHeaderByte with ⟨s2, r2, k2, y2, c2⟩ | ⟨empty, e, after, failed, ran⟩
    · rcases y2.readHeaderByte with ⟨s3, r3, k3, y3, c3⟩ | ⟨empty, e, after, failed, ran⟩
      · rcases y3.readHeaderByte with ⟨s4, r4, k4, y4, c4⟩ | ⟨empty, e, after, failed, ran⟩
        · refine Or.inl ⟨s4, ?_, ((k1.trans k2).trans k3).trans k4, ?_, ?_⟩
          · rw [bind_ok r1, bind_ok r2, bind_ok r3, bind_ok r4]
            simp only [pure_apply, headerSize, List.head?_eq_getElem?, List.getElem?_tail]
          · simpa [List.tail_drop, ← List.drop_one] using y4
          · rcases c4 with nonempty | last
            · left
              by_contra short
              apply nonempty
              apply List.length_eq_zero_iff.mp
              simp only [List.length_tail]
              omega
            · exact Or.inr last
        · rw [bind_ok r1, bind_ok r2, bind_ok r3, bind_error ran]
          have length := congrArg List.length empty
          simp only [List.length_tail, List.length_nil] at length
          exact Or.inr ⟨by omega, e, after, failed, rfl⟩
      · rw [bind_ok r1, bind_ok r2, bind_error ran]
        have length := congrArg List.length empty
        simp only [List.length_tail, List.length_nil] at length
        exact Or.inr ⟨by omega, e, after, failed, rfl⟩
    · rw [bind_ok r1, bind_error ran]
      have length := congrArg List.length empty
      simp only [List.length_tail, List.length_nil] at length
      exact Or.inr ⟨by omega, e, after, failed, rfl⟩
  · rw [bind_error ran]
    exact Or.inr ⟨by simp [empty], e, after, failed, rfl⟩

theorem Yields.readExactlyNBytes_ok {stream : MailDecryptingStream N} {bytes : Bytes}
    {ending : Ending N} (yields : Yields stream bytes ending) (n : Nat) (positive : 0 < n)
    (enough : n ≤ bytes.length) :
    ∃ after, readExactlyNBytes n stream = (.ok (bytes.take n), after) ∧ Keeps stream after ∧
      Yields after (bytes.drop n) ending := by
  obtain ⟨m, rfl⟩ : ∃ m, n = m + 1 := ⟨n - 1, by omega⟩
  unfold readExactlyNBytes
  rw [if_neg (by omega), Int.toNat_natCast, readExactlyLoop]
  rcases yields.readUserBytes (m + 1) positive with ⟨after, ran, kept, rest, _⟩ | ⟨short, _⟩
  · have size : (bytes.take (m + 1)).length = m + 1 := by
      rw [List.length_take]
      omega
    have nonempty : bytes.take (m + 1) ≠ [] := by
      intro empty
      rw [empty] at size
      cases size
    refine ⟨after, ?_, kept, rest⟩
    rw [bind_ok ran, if_neg nonempty, size, Nat.sub_self]
    cases m with
    | zero => simp [readExactlyLoop]
    | succ m => simp [readExactlyLoop]
  · omega

theorem Yields.readExactlyNBytes_short {stream : MailDecryptingStream N} {bytes : Bytes}
    {ending : Ending N} (yields : Yields stream bytes ending) (n : Nat)
    (short : bytes.length < n) :
    (ending = .terminator ∧ ∃ after, readExactlyNBytes n stream = (.error .eof, after) ∧
      Keeps stream after ∧ Yields after [] .terminator) ∨
    ∃ e after, ending = .failure e after ∧ readExactlyNBytes n stream = (.error e, after) := by
  obtain ⟨m, rfl⟩ : ∃ m, n = m + 1 := ⟨n - 1, by omega⟩
  unfold readExactlyNBytes
  rw [if_neg (by omega), Int.toNat_natCast, readExactlyLoop]
  rcases yields.readUserBytes (m + 1) (by omega) with
    ⟨middle, ran, kept, rest, complete⟩ | ⟨_, e, after, failed, ran⟩
  · left
    have last : ending = .terminator := complete.resolve_left (by omega)
    subst last
    rw [List.take_of_length_le (by omega)] at ran
    rw [List.drop_of_length_le (by omega)] at rest
    refine ⟨rfl, ?_⟩
    rw [bind_ok ran]
    by_cases empty : bytes = []
    · rw [if_pos empty]
      exact ⟨middle, rfl, kept, rest⟩
    · -- Some bytes came; the next call of the loop meets the terminator.
      rw [if_neg empty]
      have positive : 0 < bytes.length := List.length_pos_iff.mpr empty
      obtain ⟨k, left⟩ : ∃ k, m + 1 - bytes.length = k + 1 := ⟨m - bytes.length, by omega⟩
      obtain ⟨l, more⟩ : ∃ l, m = l + 1 := ⟨m - 1, by omega⟩
      rcases rest.readUserBytes (k + 1) (by omega) with
        ⟨after, again, keptAgain, restAgain, _⟩ | ⟨_, _, _, impossible, _⟩
      · refine ⟨after, ?_, kept.trans keptAgain, by simpa using restAgain⟩
        rw [left, more, readExactlyLoop]
        exact bind_error ((bind_ok again).trans (by simp))
      · cases impossible
  · right
    exact ⟨e, after, failed, bind_error ran⟩

/-- How carving out the private header can end. -/
inductive HeaderOutcome (stream : MailDecryptingStream N) (bytes : Bytes) (ending : Ending N) :
    Except StreamException Unit × MailDecryptingStream N → Prop
  /-- The size is right and the bytes are there. -/
  | received (header rest : Bytes) (middle : MailDecryptingStream N)
      (size : headerSize bytes = header.length) (layout : bytes.drop 4 = header ++ rest)
      (enough : 4 ≤ bytes.length) (kept : Keeps stream middle)
      (yields : Yields middle rest ending) :
      HeaderOutcome stream bytes ending
        (.ok (), middle.withPrivateHeader (emptyToNull (some header)) middle.privateHeaderRead)
  /-- A packet was rejected on the way. -/
  | rejected (e : StreamException) (after : MailDecryptingStream N)
      (failed : ending = .failure e after) :
      HeaderOutcome stream bytes ending (.error e, after)
  /-- The terminator came first. -/
  | ended (e : StreamException) (after : MailDecryptingStream N) (last : ending = .terminator)
      (short : bytes.length < 4 ∨ (bytes.length : Int) < 4 + headerSize bytes)
      (kept : Keeps stream after) (yields : Yields after [] .terminator) :
      HeaderOutcome stream bytes ending (.error e, after)
  /-- The size has its top bit set. -/
  | negative (after : MailDecryptingStream N) (size : headerSize bytes < 0)
      (kept : Keeps stream after) (yields : Yields after (bytes.drop 4) ending) :
      HeaderOutcome stream bytes ending (.error .negativeArraySize, after)

/-- A size completed with `0xFF` bytes is never zero. -/
theorem headerSize_ne_zero {bytes : Bytes} (short : bytes.length < 4) : headerSize bytes ≠ 0 := by
  have last : bytes[3]? = none := List.getElem?_eq_none (by omega)
  simp only [headerSize, last, Option.map_none, Option.getD_none]
  unfold wrap32
  rw [Int.bmod_def]
  split <;> push_cast <;> omega

theorem Yields.receivePrivateHeader {stream : MailDecryptingStream N} {bytes : Bytes}
    {ending : Ending N} (yields : Yields stream bytes ending) :
    HeaderOutcome stream bytes ending (receivePrivateHeader stream) := by
  unfold MailDecryptingStream.receivePrivateHeader
  rcases yields.readInt with ⟨middle, ran, kept, rest, _⟩ | ⟨_, e, after, failed, ran⟩
  · rw [bind_ok ran]
    by_cases zero : headerSize bytes = 0
    · rw [if_pos zero]
      have complete : 4 ≤ bytes.length := by
        by_contra short
        exact headerSize_ne_zero (by omega) zero
      exact HeaderOutcome.received [] (bytes.drop 4) middle zero rfl complete kept rest
    · rw [if_neg zero]
      by_cases negative : headerSize bytes < 0
      · have thrown : readExactlyNBytes (headerSize bytes) middle =
            (.error .negativeArraySize, middle) := by
          simp [readExactlyNBytes, negative]
        rw [bind_error thrown]
        exact HeaderOutcome.negative middle negative kept rest
      · obtain ⟨size, sizeEq⟩ : ∃ size : Nat, headerSize bytes = size :=
          ⟨(headerSize bytes).toNat, by omega⟩
        rw [sizeEq]
        by_cases enough : size ≤ (bytes.drop 4).length
        · obtain ⟨after, exact, keptAgain, restAgain⟩ :=
            rest.readExactlyNBytes_ok size (by omega) enough
          rw [bind_ok exact]
          have length : ((bytes.drop 4).take size).length = size := by
            rw [List.length_take]
            omega
          have nonempty : (bytes.drop 4).take size ≠ [] := by
            intro empty
            rw [empty] at length
            simp only [List.length_nil] at length
            omega
          have present : emptyToNull (some ((bytes.drop 4).take size)) =
              some ((bytes.drop 4).take size) := by
            cases taken : (bytes.drop 4).take size with
            | nil => exact absurd taken nonempty
            | cons byte more => rfl
          have complete : 4 ≤ bytes.length := by
            rw [List.length_drop] at enough
            omega
          have outcome : HeaderOutcome stream bytes ending
              (.ok (), after.withPrivateHeader
                (emptyToNull (some ((bytes.drop 4).take size))) after.privateHeaderRead) :=
            HeaderOutcome.received _ ((bytes.drop 4).drop size) after (by rw [sizeEq, length])
              (List.take_append_drop size (bytes.drop 4)).symm complete (kept.trans keptAgain)
              restAgain
          rw [present] at outcome
          exact outcome
        · rw [List.length_drop] at enough
          rcases rest.readExactlyNBytes_short size (by rw [List.length_drop]; omega) with
            ⟨last, after, thrown, keptAgain, restAgain⟩ | ⟨e, after, failed, thrown⟩
          · rw [bind_error thrown]
            exact HeaderOutcome.ended .eof after last (by omega) (kept.trans keptAgain) restAgain
          · rw [bind_error thrown]
            exact HeaderOutcome.rejected e after failed
  · rw [bind_error ran]
    exact HeaderOutcome.rejected e after failed

end MailDecryptingStream

end Conclave.Mail
