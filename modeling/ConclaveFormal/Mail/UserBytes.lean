import ConclaveFormal.Mail.RoundTrip

/-!
# The user bytes of the packets

What a session will hand out, computed from the packets alone: `userBytes` opens one packet after
the other, without the buffer, the cursors and the private header of the stream.
-/

set_option autoImplicit false

namespace Conclave.Mail

open Conclave.Lib

/-- The plaintext of the packet in front, the session after it and the bytes behind it. -/
def openPacket {N : Noise} (cipherState : CipherState N) :
    Bytes → Option (Bytes × CipherState N × Bytes)
  | b1 :: b2 :: rest =>
      let packetLength := b1.toNat * 256 + b2.toNat
      if packetLength < macLength ∨ rest.length < packetLength then none
      else
        match cipherState.decryptWithAd (rest.take packetLength) with
        | (none, _) => none
        | (some plaintext, next) =>
            if plaintext.length < 2 ∨
                plaintext.length - 2 < readShort plaintext (plaintext.length - 2) then none
            else some (plaintext, next, rest.drop packetLength)
  | _ => none

/-- The user bytes up to the terminator, or up to a packet that is not accepted, and whether the
terminator is there.  Every packet uses up bytes of the input. -/
def userBytes {N : Noise} : Nat → CipherState N → Bytes → Bytes × Bool
  | 0, _, _ => ([], false)
  | fuel + 1, cipherState, input =>
      match openPacket cipherState input with
      | none => ([], false)
      | some (plaintext, next, rest) =>
          let payloadLength := plaintext.length - 2
          if payloadLength = 0 then ([], true)
          else
            (plaintext.take (readShort plaintext payloadLength) ++ (userBytes fuel next rest).1,
              (userBytes fuel next rest).2)

theorem openPacket_some {N : Noise} {cipherState next : CipherState N}
    {input plaintext behind : Bytes}
    (opened : openPacket cipherState input = some (plaintext, next, behind)) :
    ∃ b1 b2 rest, input = b1 :: b2 :: rest ∧ macLength ≤ b1.toNat * 256 + b2.toNat ∧
      b1.toNat * 256 + b2.toNat ≤ rest.length ∧
      cipherState.decryptWithAd (rest.take (b1.toNat * 256 + b2.toNat)) = (some plaintext, next) ∧
      2 ≤ plaintext.length ∧
      readShort plaintext (plaintext.length - 2) ≤ plaintext.length - 2 ∧
      behind = rest.drop (b1.toNat * 256 + b2.toNat) := by
  rcases input with _ | ⟨b1, _ | ⟨b2, rest⟩⟩
  · cases opened
  · cases opened
  · rw [openPacket] at opened
    by_cases cut : b1.toNat * 256 + b2.toNat < macLength ∨
        rest.length < b1.toNat * 256 + b2.toNat
    · rw [if_pos cut] at opened
      cases opened
    · rw [if_neg cut] at opened
      cases decrypted : cipherState.decryptWithAd (rest.take (b1.toNat * 256 + b2.toNat)) with
      | mk outcome after =>
          cases outcome with
          | none =>
              simp only [decrypted] at opened
              cases opened
          | some bytes =>
              simp only [decrypted] at opened
              by_cases wrong : bytes.length < 2 ∨
                  bytes.length - 2 < readShort bytes (bytes.length - 2)
              · rw [if_pos wrong] at opened
                cases opened
              · rw [if_neg wrong] at opened
                cases opened
                exact ⟨b1, b2, rest, rfl, by omega, by omega, decrypted, by omega, by omega, rfl⟩

namespace MailDecryptingStream

open Attempt

variable {N : Noise}

section Packet

variable {stream : MailDecryptingStream N} {cipherState : CipherState N}
  (session : stream.cipherState = some cipherState)
include session

theorem readNextPacket_refused (refused : openPacket cipherState stream.input = none) :
    ∃ e after, readNextPacket stream = (.error e, after) := by
  cases ran : readNextPacket stream with
  | mk outcome after =>
      cases outcome with
      | error e => exact ⟨e, after, rfl⟩
      | ok value =>
          obtain ⟨b1, b2, rest, plaintext, input, large, whole, unused, decrypted, long, fits, _⟩ :=
            readNextPacket_accepted session ran
          rw [input, openPacket, if_neg (by omega)] at refused
          simp only [CipherState.decryptWithAd, if_neg unused, decrypted] at refused
          rw [if_neg (by omega)] at refused
          cases refused

theorem readNextPacket_opened {plaintext behind : Bytes} {next : CipherState N}
    (opened : openPacket cipherState stream.input = some (plaintext, next, behind)) :
    readNextPacket stream = (.ok (), { stream with
      input := behind
      cipherState := some next
      currentDecryptedBuffer := plaintext ++ stream.currentDecryptedBuffer.drop plaintext.length
      currentUserBytesLength := readShort plaintext (plaintext.length - 2)
      currentUserBytesIndex := if plaintext.length - 2 = 0 then -1 else 0 }) := by
  obtain ⟨b1, b2, rest, input, large, whole, decrypted, long, fits, rfl⟩ := openPacket_some opened
  rw [readNextPacket_whole session input large whole, decrypted]
  exact acceptPlaintext_ok long fits

end Packet

end MailDecryptingStream

theorem openPacket_size {N : Noise} {cipherState next : CipherState N}
    {input plaintext behind : Bytes}
    (opened : openPacket cipherState input = some (plaintext, next, behind)) :
    plaintext.length ≤ maxPacketPlaintextLength ∧ behind.length < input.length := by
  obtain ⟨b1, b2, rest, rfl, large, whole, decrypted, _, _, rfl⟩ := openPacket_some opened
  have high := b1.toNat_lt
  have low := b2.toNat_lt
  have size : (rest.take (b1.toNat * 256 + b2.toNat)).length = plaintext.length + macLength := by
    by_cases exhausted : cipherState.nonce = lastNonce
    · rw [CipherState.decryptWithAd, if_pos exhausted] at decrypted
      cases (Prod.mk.inj decrypted).1
    · rw [CipherState.decryptWithAd, if_neg exhausted] at decrypted
      exact N.decrypt_length _ _ _ _ (Prod.mk.inj decrypted).1
  rw [List.length_take, macLength_eq] at size
  rw [macLength_eq] at large
  rw [maxPacketPlaintextLength_eq, List.length_drop, List.length_cons, List.length_cons]
  omega

namespace MailDecryptingStream

open Attempt

variable {N : Noise}

/-- A drained stream hands out what the packets before it carry. -/
theorem yields_userBytes (fuel : Nat) {stream : MailDecryptingStream N}
    {cipherState : CipherState N} (session : stream.cipherState = some cipherState)
    (drained : stream.currentUserBytesIndex = stream.currentUserBytesLength)
    (enough : stream.input.length ≤ fuel) :
    ∃ ending, Yields stream (userBytes fuel cipherState stream.input).1 ending ∧
      ((userBytes fuel cipherState stream.input).2 = true ↔ ending = .terminator) := by
  induction fuel generalizing stream cipherState with
  | zero =>
      have empty : stream.input = [] := List.length_eq_zero_iff.mp (by omega)
      have refused : openPacket cipherState stream.input = none := by
        rw [empty]
        rfl
      obtain ⟨e, after, thrown⟩ := readNextPacket_refused session refused
      exact ⟨.failure e after, Yields.rejected drained thrown, by simp [userBytes]⟩
  | succ fuel ih =>
      rw [userBytes]
      cases opened : openPacket cipherState stream.input with
      | none =>
          obtain ⟨e, after, thrown⟩ := readNextPacket_refused session opened
          exact ⟨.failure e after, Yields.rejected drained thrown, by simp⟩
      | some packet =>
          obtain ⟨plaintext, next, behind⟩ := packet
          have accepted := readNextPacket_opened session opened
          obtain ⟨_, _, _, _, _, _, _, long, fits, _⟩ := openPacket_some opened
          obtain ⟨size, shorter⟩ := openPacket_size opened
          by_cases last : plaintext.length - 2 = 0
          · simp only [if_pos last] at accepted ⊢
            refine ⟨.terminator, Yields.accepted drained accepted (Yields.terminator rfl ?_), ?_⟩
            · simp only
              omega
            · simp
          · simp only [if_neg last] at accepted ⊢
            generalize reachedEq : ({ stream with
              input := behind
              cipherState := some next
              currentDecryptedBuffer :=
                plaintext ++ stream.currentDecryptedBuffer.drop plaintext.length
              currentUserBytesLength := readShort plaintext (plaintext.length - 2)
              currentUserBytesIndex := 0 } : MailDecryptingStream N) = reached at accepted
            generalize userEq : readShort plaintext (plaintext.length - 2) = user at *
            have input : reached.input = behind := by rw [← reachedEq]
            have index : reached.currentUserBytesIndex = 0 := by rw [← reachedEq]
            have length : reached.currentUserBytesLength = user := by rw [← reachedEq]
            have buffer : reached.currentDecryptedBuffer =
                plaintext ++ stream.currentDecryptedBuffer.drop plaintext.length := by
              rw [← reachedEq]
            have nextSession : (reached.advance user).cipherState = some next := by
              rw [← reachedEq]
              rfl
            have position : (reached.advance user).currentUserBytesIndex =
                reached.currentUserBytesIndex + user := rfl
            have same : (reached.advance user).currentUserBytesLength =
                reached.currentUserBytesLength := rfl
            have later : (reached.advance user).input = behind := input
            obtain ⟨ending, yields, terminated⟩ := ih nextSession (by omega) (by rw [later]; omega)
            rw [later] at yields terminated
            refine ⟨ending, Yields.accepted drained accepted ?_, terminated⟩
            refine yields_buffered user (by omega) (by omega) (by omega) ?_ ?_ yields
            · rw [index, buffer, Int.toNat_zero, List.drop_zero,
                List.take_append_of_le_length (by omega)]
            · rw [length, buffer, List.length_append]
              omega

end MailDecryptingStream

end Conclave.Mail
