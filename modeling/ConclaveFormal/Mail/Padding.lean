import ConclaveFormal.Mail.MailSize

/-!
# What the size of a mail gives away

Padding towards `minSize` is meant to close the message size side channel.  The
padding of the last packet with user bytes is counted from the bytes already
written, without the ones in that packet, so up to the end of the packet they
come on top of `minSize`.
-/

set_option autoImplicit false

namespace Conclave.Mail

open Conclave.Lib

/-- The bytes behind the last packet boundary below `minSize` that the padding
does not absorb. -/
def visibleExcess (minSize plainLength : Nat) : Nat :=
  min (plainLength - minSize / maxPacketPayloadLength * maxPacketPayloadLength)
    (maxPacketPayloadLength - minSize % maxPacketPayloadLength)

/-- As long as the mail does not outgrow `minSize`, the number of packets is
fixed and only the payload of the last one varies. -/
theorem framesSize_of_le {minSize plainLength : Nat} (fits : plainLength ≤ minSize) :
    framesSize minSize plainLength =
      minSize + visibleExcess minSize plainLength + 20 * (packetsFor minSize + 1) := by
  have absorbed : flushedPayload minSize plainLength ≤ minSize ∧
        visibleExcess minSize plainLength = 0 ∧
        packetsFor plainLength + packetsFor (minSize - flushedPayload minSize plainLength) =
          packetsFor minSize ∨
      minSize ≤ flushedPayload minSize plainLength ∧
        flushedPayload minSize plainLength = minSize + visibleExcess minSize plainLength ∧
        packetsFor plainLength = packetsFor minSize := by
    unfold flushedPayload lastPadding visibleExcess packetsFor
    rw [maxPacketPayloadLength_eq]
    split <;> omega
  unfold framesSize totalPayload packetCount
  rcases absorbed with ⟨below, none, count⟩ | ⟨above, total, count⟩
  · rw [none, count]
    omega
  · have noPads : minSize - flushedPayload minSize plainLength = 0 := by omega
    rw [noPads, packetsFor_zero, count]
    omega

section

variable {N : Noise} {header : EnclaveMailHeaderImpl} {minSize : Nat}
  {destination₁ destination₂ : N.PublicKey} {sender₁ sender₂ : N.PrivateKey}
  {ephemeral₁ ephemeral₂ : N.Ephemeral} {capacity₁ capacity₂ : Nat}
  {privateHeader₁ privateHeader₂ : Option Bytes} {requests₁ requests₂ : List WriteRequest}
  {mail₁ mail₂ : MailEncryptingStream N}

/-- Two mails that fit into `minSize` have the same size exactly when they agree
in the bytes the padding leaves visible. -/
theorem encrypt_length_eq_iff (minSizeRange : minSize < 2 ^ 31)
    (run₁ : encrypt destination₁ header privateHeader₁ sender₁ minSize ephemeral₁ capacity₁
      requests₁ = .ok mail₁)
    (run₂ : encrypt destination₂ header privateHeader₂ sender₂ minSize ephemeral₂ capacity₂
      requests₂ = .ok mail₂)
    (fits₁ : (plainBytes privateHeader₁ (requests₁.flatMap WriteRequest.written)).length ≤
      minSize)
    (fits₂ : (plainBytes privateHeader₂ (requests₂.flatMap WriteRequest.written)).length ≤
      minSize) :
    mail₁.out.length = mail₂.out.length ↔
      visibleExcess minSize
          (plainBytes privateHeader₁ (requests₁.flatMap WriteRequest.written)).length =
        visibleExcess minSize
          (plainBytes privateHeader₂ (requests₂.flatMap WriteRequest.written)).length := by
  have length₁ := encrypt_length minSizeRange (plainBytes_length _ _) (by omega)
    (Or.inr fits₁) run₁
  have length₂ := encrypt_length minSizeRange (plainBytes_length _ _) (by omega)
    (Or.inr fits₂) run₂
  rw [length₁, length₂, mailSize, mailSize, framesSize_of_le fits₁, framesSize_of_le fits₂]
  omega

end

/-! ## Five bytes of body under a minimum of ten -/

def shortHeader : EnclaveMailHeaderImpl := ⟨0, [116], none, none⟩

private theorem shortMail_exists (requests : List WriteRequest)
    (valid : ∀ request ∈ requests, request.valid = true)
    (small : (requests.flatMap WriteRequest.written).length ≤ 5) :
    ∃ mail : MailEncryptingStream openNoise,
      encrypt (N := openNoise) (1 : UInt8) shortHeader none ((2, none) : UInt8 × Option Bytes)
        (10 : Nat) () 1000 requests = .ok mail := by
  refine encrypt_progress _ _ _ (by omega) valid (by decide) rfl ?_ ?_
  · unfold totalPayload flushedPayload lastPadding
    rw [maxPacketPayloadLength_eq]
    simp only [Option.getD_none, List.length_nil]
    split <;> omega
  · have preamble : preambleSize shortHeader = 115 := by decide
    unfold mailSize framesSize totalPayload packetCount flushedPayload lastPadding packetsFor
    rw [maxPacketPayloadLength_eq, preamble]
    simp only [Option.getD_none, List.length_nil]
    split <;> omega

/-- Same length, different content: the sizes agree. -/
theorem encrypt_length_eq_equalBodies :
    ∃ mail₁ mail₂ : MailEncryptingStream openNoise,
      encrypt (N := openNoise) (1 : UInt8) shortHeader none ((2, none) : UInt8 × Option Bytes)
          (10 : Nat) () 1000 [.array [1, 2, 3] 0 3] = .ok mail₁ ∧
        encrypt (N := openNoise) (1 : UInt8) shortHeader none
          ((2, none) : UInt8 × Option Bytes) (10 : Nat) () 1000 [.byte 4, .array [5, 6] 0 2] =
          .ok mail₂ ∧
        mail₁.out.length = mail₂.out.length := by
  obtain ⟨mail₁, run₁⟩ := shortMail_exists [.array [1, 2, 3] 0 3] (by decide) (by decide)
  obtain ⟨mail₂, run₂⟩ := shortMail_exists [.byte 4, .array [5, 6] 0 2] (by decide) (by decide)
  exact ⟨mail₁, mail₂, run₁, run₂,
    (encrypt_length_eq_iff (by omega) run₁ run₂ (by decide) (by decide)).mpr rfl⟩

/-- An empty body and one of five bytes, both within `minSize`, differ in size. -/
theorem encrypt_length_ne_shortBodies :
    ∃ mail₁ mail₂ : MailEncryptingStream openNoise,
      encrypt (N := openNoise) (1 : UInt8) shortHeader none ((2, none) : UInt8 × Option Bytes)
          (10 : Nat) () 1000 [] = .ok mail₁ ∧
        encrypt (N := openNoise) (1 : UInt8) shortHeader none
          ((2, none) : UInt8 × Option Bytes) (10 : Nat) () 1000 [.array [1, 2, 3, 4, 5] 0 5] =
          .ok mail₂ ∧
        (plainBytes none []).length ≤ 10 ∧ (plainBytes none [1, 2, 3, 4, 5]).length ≤ 10 ∧
        mail₁.out.length ≠ mail₂.out.length := by
  obtain ⟨mail₁, run₁⟩ := shortMail_exists [] (by decide) (by decide)
  obtain ⟨mail₂, run₂⟩ := shortMail_exists [.array [1, 2, 3, 4, 5] 0 5] (by decide) (by decide)
  refine ⟨mail₁, mail₂, run₁, run₂, by decide, by decide, ?_⟩
  have length₁ := encrypt_length (by omega) (plainBytes_length none []) (by decide)
    (Or.inr (by decide)) run₁
  have length₂ := encrypt_length (by omega) (plainBytes_length none [1, 2, 3, 4, 5]) (by decide)
    (Or.inr (by decide)) run₂
  rw [length₁, length₂]
  decide

end Conclave.Mail
