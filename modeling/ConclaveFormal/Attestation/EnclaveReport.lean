import ConclaveFormal.Attestation.JsonTypes
import ConclaveFormal.Attestation.SgxTypes
import ConclaveFormal.Lib.Fallible
import Mathlib.Data.List.GetD

/-!
# The report of the quoting enclave

The report is compared with the identity in the collateral.  `miscselect` is big-endian in the
identity and little-endian in the report.  The attributes have sixteen bytes, the flags and then
XFRM, of which the loop compares the first eight.
-/

set_option autoImplicit false

namespace Conclave.Attestation

open Conclave.Lib

inductive EnclaveReportStatus where
  | MISCSELECT_MISMATCH
  | ATTRIBUTES_MISMATCH
  | MRSIGNER_MISMATCH
  | ISVPRODID_MISMATCH
  | ISVSVN_REVOKED
  | ISVSVN_OUT_OF_DATE
  deriving DecidableEq, Repr

def EnclaveReportStatus.isMismatch : EnclaveReportStatus → Bool
  | MISCSELECT_MISMATCH | ATTRIBUTES_MISMATCH | MRSIGNER_MISMATCH | ISVPRODID_MISMATCH => true
  | ISVSVN_REVOKED | ISVSVN_OUT_OF_DATE => false

inductive ReportError where
  | bufferUnderflow
  | indexOutOfBounds
  deriving DecidableEq, Repr

def getUnsignedInt (buffer : Bytes) : Except ReportError Nat :=
  if buffer.length < 4 then .error .bufferUnderflow else .ok (ofBigEndian (buffer.take 4))

/-- `bytes[index].toInt()`, which extends the sign. -/
def signedByte (bytes : Bytes) (index : Nat) : Except ReportError Int32 :=
  match bytes[index]? with
  | some byte => .ok byte.toInt8.toInt32
  | none => .error .indexOutOfBounds

/-- The loop over the attributes: whether it goes through. -/
def attributesAgree (reportAttributes attributesMask attributes : Bytes) :
    List Nat → Except ReportError Bool
  | [] => .ok true
  | i :: rest => do
      let value ← signedByte reportAttributes i
      let mask ← signedByte attributesMask i
      let expected ← signedByte attributes i
      if value &&& mask ≠ expected then return false
      else attributesAgree reportAttributes attributesMask attributes rest

section Verification

variable {Instant : Type}

def getTcbStatus (isvSvn : Int) : List (EnclaveTcbLevel Instant) → EnclaveTcbStatus
  | [] => .Revoked
  | lvl :: levels => if lvl.tcb.isvsvn ≤ isvSvn then lvl.tcbStatus else getTcbStatus isvSvn levels

def isvSvnStatus (tcbStatus : EnclaveTcbStatus) : Option EnclaveReportStatus :=
  if tcbStatus ≠ .UpToDate then
    some (if tcbStatus = .Revoked then .ISVSVN_REVOKED else .ISVSVN_OUT_OF_DATE)
  else none

def verifyEnclaveReport (enclaveReportBody : Cursor SgxReportBody)
    (enclaveIdentity : EnclaveIdentity Instant) :
    Except ReportError (Option EnclaveReportStatus) := do
  let miscselectMask ← getUnsignedInt enclaveIdentity.miscselectMask
  let miscselect ← getUnsignedInt enclaveIdentity.miscselect
  if ofLittleEndian (enclaveReportBody.get SgxReportBody.miscSelect) &&& miscselectMask ≠
      miscselect then
    return some .MISCSELECT_MISMATCH
  else
    let agree ← attributesAgree (enclaveReportBody.get SgxReportBody.attributes)
      enclaveIdentity.attributesMask enclaveIdentity.attributes (List.range 8)
    if ¬ agree then return some .ATTRIBUTES_MISMATCH
    else if enclaveReportBody.get SgxReportBody.mrsigner ≠ enclaveIdentity.mrsigner then
      return some .MRSIGNER_MISMATCH
    else if (ofLittleEndian (enclaveReportBody.get SgxReportBody.isvProdId) : Int) ≠
        enclaveIdentity.isvprodid then
      return some .ISVPRODID_MISMATCH
    else
      let isvSvn : Int := ofLittleEndian (enclaveReportBody.get SgxReportBody.isvSvn)
      return isvSvnStatus (getTcbStatus isvSvn enclaveIdentity.tcbLevels)

/-! ## What the report has to meet -/

/-- The value equals the golden one in every byte, once the mask is applied. -/
def Masked (value mask golden : Bytes) : Prop :=
  List.zipWith (fun byte mask => byte &&& mask) value mask = golden

instance (value mask golden : Bytes) : Decidable (Masked value mask golden) :=
  inferInstanceAs (Decidable (_ = golden))

variable (report : Cursor SgxReportBody) (identity : EnclaveIdentity Instant)

structure Widths : Prop where
  miscselect : identity.miscselect.length = 4
  miscselectMask : identity.miscselectMask.length = 4
  attributes : identity.attributes.length = 16
  attributesMask : identity.attributesMask.length = 16
  mrsigner : identity.mrsigner.length = 32

/-- Apart from the attributes.  The report's `miscSelect` is turned round. -/
def OthersMatch : Prop :=
  Masked (report.get SgxReportBody.miscSelect).reverse identity.miscselectMask
    identity.miscselect ∧
  report.get SgxReportBody.mrsigner = identity.mrsigner ∧
  (ofLittleEndian (report.get SgxReportBody.isvProdId) : Int) = identity.isvprodid

instance : Decidable (OthersMatch report identity) := inferInstanceAs (Decidable (_ ∧ _ ∧ _))

def Matches : Prop :=
  OthersMatch report identity ∧ Masked (report.get SgxReportBody.attributes)
    identity.attributesMask identity.attributes

/-- The first eight bytes of the attributes. -/
def FlagsMatch : Prop :=
  Masked ((report.get SgxReportBody.attributes).take 8) (identity.attributesMask.take 8)
    (identity.attributes.take 8)

/-- The last eight bytes of the attributes. -/
def XfrmMatches : Prop :=
  Masked ((report.get SgxReportBody.attributes).drop 8) (identity.attributesMask.drop 8)
    (identity.attributes.drop 8)

instance : Decidable (FlagsMatch report identity) := inferInstanceAs (Decidable (Masked _ _ _))

instance : Decidable (XfrmMatches report identity) := inferInstanceAs (Decidable (Masked _ _ _))

def NoMismatch : Prop :=
  ∃ status, verifyEnclaveReport report identity = .ok status ∧
    ∀ found, status = some found → found.isMismatch = false

end Verification

/-! ## What the report is compared in -/

theorem getUnsignedInt_of_length {buffer : Bytes} (four : buffer.length = 4) :
    getUnsignedInt buffer = .ok (ofBigEndian buffer) := by
  rw [getUnsignedInt, if_neg (by omega), List.take_of_length_le four.le]

theorem signed_and_eq_iff (value mask expected : UInt8) :
    value.toInt8.toInt32 &&& mask.toInt8.toInt32 = expected.toInt8.toInt32 ↔
      value &&& mask = expected := by
  rw [← Int8.toInt32_and, ← UInt8.toInt8_and]
  constructor
  · intro same
    have narrow := congrArg Int32.toInt8 same
    rw [Int8.toInt8_toInt32, Int8.toInt8_toInt32] at narrow
    exact congrArg Int8.toUInt8 narrow
  · intro same
    rw [same]

/-- The loop compares the bytes at its indices. -/
theorem attributesAgree_eq {value mask expected : Bytes} {indices : List Nat}
    (inside : ∀ i ∈ indices, i < value.length ∧ i < mask.length ∧ i < expected.length) :
    attributesAgree value mask expected indices =
      .ok (decide (∀ i ∈ indices, value.getD i 0 &&& mask.getD i 0 = expected.getD i 0)) := by
  induction indices with
  | nil => rfl
  | cons i rest ih =>
      obtain ⟨valueInside, maskInside, expectedInside⟩ := inside i List.mem_cons_self
      have byte {bytes : Bytes} (within : i < bytes.length) :
          signedByte bytes i = .ok (bytes.getD i 0).toInt8.toInt32 := by
        rw [signedByte, List.getElem?_eq_getElem within, List.getD_eq_getElem bytes 0 within]
      rw [attributesAgree, bind_of_ok (byte valueInside), bind_of_ok (byte maskInside),
        bind_of_ok (byte expectedInside)]
      have signed := signed_and_eq_iff (value.getD i 0) (mask.getD i 0) (expected.getD i 0)
      by_cases same : value.getD i 0 &&& mask.getD i 0 = expected.getD i 0
      · have later := ih fun j member => inside j (List.mem_cons_of_mem i member)
        rw [if_neg (not_not.mpr (signed.mpr same)), later]
        simp only [List.forall_mem_cons, same, true_and]
      · rw [if_pos (signed.not.mpr same)]
        simp only [List.forall_mem_cons, same, false_and]
        rfl

theorem masked_iff_getD {value mask golden : Bytes} (sized : mask.length = value.length)
    (sized' : golden.length = value.length) :
    Masked value mask golden ↔
      ∀ i < value.length, value.getD i 0 &&& mask.getD i 0 = golden.getD i 0 := by
  have length : (List.zipWith (fun byte mask => byte &&& mask) value mask).length =
      value.length := by
    rw [List.length_zipWith, sized, Nat.min_self]
  constructor
  · intro same i inside
    have maskInside : i < mask.length := by omega
    rw [List.getD_eq_getElem _ _ inside, List.getD_eq_getElem _ _ maskInside, ← same,
      List.getD_eq_getElem _ _ (by omega), List.getElem_zipWith]
  · intro agree
    apply List.ext_getElem (by omega)
    intro i inside goldenInside
    have here := agree i (by omega)
    rw [List.getElem_zipWith]
    rwa [List.getD_eq_getElem _ _ (by omega), List.getD_eq_getElem _ _ (by omega),
      List.getD_eq_getElem _ _ goldenInside] at here

theorem masked_split {value mask golden : Bytes} (count : Nat) :
    Masked value mask golden ↔ Masked (value.take count) (mask.take count) (golden.take count) ∧
      Masked (value.drop count) (mask.drop count) (golden.drop count) := by
  rw [Masked, Masked, Masked, ← List.take_zipWith, ← List.drop_zipWith]
  constructor
  · intro same
    rw [same]
    exact ⟨rfl, rfl⟩
  · rintro ⟨front, back⟩
    rw [← List.take_append_drop count (List.zipWith _ value mask), front, back,
      List.take_append_drop]

theorem isvSvnStatus_isMismatch (tcbStatus : EnclaveTcbStatus) :
    ∀ found, isvSvnStatus tcbStatus = some found → found.isMismatch = false := by
  intro found same
  cases tcbStatus with
  | UpToDate => cases same
  | OutOfDate =>
      cases same
      rfl
  | Revoked =>
      cases same
      rfl

/-- Where no comparison fails, the status is that of the ISVSVN. -/
theorem verifyEnclaveReport_ok {Instant : Type} {report : Cursor SgxReportBody}
    {identity : EnclaveIdentity Instant} {status : Option EnclaveReportStatus}
    (verified : verifyEnclaveReport report identity = .ok status)
    (passes : ∀ found, status = some found → found.isMismatch = false) :
    status = isvSvnStatus (getTcbStatus
      (ofLittleEndian (report.get SgxReportBody.isvSvn)) identity.tcbLevels) := by
  have rejected {mismatch : EnclaveReportStatus} (found : mismatch.isMismatch = true)
      (same : status = some mismatch) : False := by
    rw [passes mismatch same] at found
    cases found
  obtain ⟨miscselectMask, _, rest⟩ := bind_eq_ok verified
  obtain ⟨miscselect, _, rest⟩ := bind_eq_ok rest
  split at rest
  · cases rest
    exact (rejected rfl rfl).elim
  · obtain ⟨agree, _, rest⟩ := bind_eq_ok rest
    split at rest
    · cases rest
      exact (rejected rfl rfl).elim
    · split at rest
      · cases rest
        exact (rejected rfl rfl).elim
      · split at rest
        · cases rest
          exact (rejected rfl rfl).elim
        · cases rest
          rfl

theorem reports_mismatch {result : Except ReportError (Option EnclaveReportStatus)}
    {mismatch : EnclaveReportStatus} (found : mismatch.isMismatch = true) :
    (result = .ok (some mismatch)) → ¬ ∃ status, result = .ok status ∧
      ∀ found, status = some found → found.isMismatch = false := by
  rintro rfl ⟨status, same, none_found⟩
  cases same
  rw [none_found mismatch rfl] at found
  cases found

section Comparison

variable {Instant : Type} (report : Cursor SgxReportBody) {identity : EnclaveIdentity Instant}
  (widths : Widths identity)

include widths

theorem attributes_flags :
    attributesAgree (report.get SgxReportBody.attributes) identity.attributesMask
      identity.attributes (List.range 8) = .ok (decide (FlagsMatch report identity)) := by
  have sized : (report.get SgxReportBody.attributes).length = 16 := report.get_length rfl
  have mask := widths.attributesMask
  have golden := widths.attributes
  rw [attributesAgree_eq]
  · congr 1
    rw [decide_eq_decide, FlagsMatch, masked_iff_getD]
    · rw [List.length_take, sized]
      constructor
      · intro agree i inside
        have here := agree i (List.mem_range.mpr (by omega))
        simpa [List.getD_eq_getElem?_getD, List.getElem?_take, show i < 8 by omega] using here
      · intro agree i member
        have inside := List.mem_range.mp member
        have here := agree i (by omega)
        simpa [List.getD_eq_getElem?_getD, List.getElem?_take, inside] using here
    · rw [List.length_take, List.length_take, sized, mask]
    · rw [List.length_take, List.length_take, sized, golden]
  · intro i member
    have inside := List.mem_range.mp member
    omega

theorem miscSelect_masked :
    ofLittleEndian (report.get SgxReportBody.miscSelect) &&& ofBigEndian identity.miscselectMask =
        ofBigEndian identity.miscselect ↔
      Masked (report.get SgxReportBody.miscSelect).reverse identity.miscselectMask
        identity.miscselect := by
  have sized : (report.get SgxReportBody.miscSelect).reverse.length = 4 := by
    rw [List.length_reverse]
    exact report.get_length rfl
  rw [ofLittleEndian, ofBigEndian_and_eq_iff, Masked]
  · rw [sized, widths.miscselectMask]
  · rw [sized, widths.miscselect]

/-- Nothing is said about the last eight bytes of the attributes. -/
theorem noMismatch_iff :
    NoMismatch report identity ↔ OthersMatch report identity ∧ FlagsMatch report identity := by
  have misc := miscSelect_masked report widths
  rw [NoMismatch, verifyEnclaveReport, OthersMatch,
    bind_of_ok (getUnsignedInt_of_length widths.miscselectMask),
    bind_of_ok (getUnsignedInt_of_length widths.miscselect), ← misc]
  by_cases miscSelect : ofLittleEndian (report.get SgxReportBody.miscSelect) &&&
      ofBigEndian identity.miscselectMask = ofBigEndian identity.miscselect
  · rw [if_neg (not_not.mpr miscSelect), bind_of_ok (attributes_flags report widths)]
    by_cases flags : FlagsMatch report identity
    · rw [if_neg (by simp [flags])]
      by_cases mrsigner : report.get SgxReportBody.mrsigner = identity.mrsigner
      · rw [if_neg (not_not.mpr mrsigner)]
        by_cases product :
            (ofLittleEndian (report.get SgxReportBody.isvProdId) : Int) = identity.isvprodid
        · rw [if_neg (not_not.mpr product)]
          refine iff_of_true ⟨_, rfl, ?_⟩ ⟨⟨miscSelect, mrsigner, product⟩, flags⟩
          exact isvSvnStatus_isMismatch _
        · rw [if_pos product]
          refine iff_of_false ?_ fun all => product all.1.2.2
          exact reports_mismatch rfl rfl
      · rw [if_pos mrsigner]
        refine iff_of_false ?_ fun all => mrsigner all.1.2.1
        exact reports_mismatch rfl rfl
    · rw [if_pos (by simp [flags])]
      refine iff_of_false ?_ fun all => flags all.2
      exact reports_mismatch rfl rfl
  · rw [if_pos miscSelect]
    refine iff_of_false ?_ fun all => miscSelect all.1.1
    exact reports_mismatch rfl rfl

theorem verifyEnclaveReport_correct_iff :
    (NoMismatch report identity ↔ Matches report identity) ↔
      XfrmMatches report identity ∨
        ¬ (OthersMatch report identity ∧ FlagsMatch report identity) := by
  have split : Matches report identity ↔ OthersMatch report identity ∧
      (FlagsMatch report identity ∧ XfrmMatches report identity) := by
    rw [Matches, masked_split 8]
    rfl
  rw [noMismatch_iff report widths, split]
  constructor
  · intro agrees
    by_cases compared : OthersMatch report identity ∧ FlagsMatch report identity
    · exact .inl (agrees.mp compared).2.2
    · exact .inr compared
  · rintro (xfrm | differs)
    · exact ⟨fun compared => ⟨compared.1, compared.2, xfrm⟩, fun all => ⟨all.1, all.2.1⟩⟩
    · exact iff_of_false differs fun all => differs ⟨all.1, all.2.1⟩

end Comparison

/-- A report of zeros, apart from the first byte of XFRM. -/
def xfrmBytes (xfrm : UInt8) : Bytes := List.replicate 56 0 ++ xfrm :: List.replicate 327 0

theorem xfrmBytes_length (xfrm : UInt8) : (xfrmBytes xfrm).length = SgxReportBody.size := by
  rw [xfrmBytes, List.length_append, List.length_cons, List.length_replicate,
    List.length_replicate]
  rfl

def xfrmReport (xfrm : UInt8) : Cursor SgxReportBody := ⟨xfrmBytes xfrm, xfrmBytes_length xfrm⟩

/-- All bits of the attributes are to be zero. -/
def zeroIdentity : EnclaveIdentity Unit where
  id := []
  version := .V2
  issueDate := ()
  nextUpdate := ()
  tcbEvaluationDataNumber := 0
  miscselect := List.replicate 4 0
  miscselectMask := List.replicate 4 0xFF
  attributes := List.replicate 16 0
  attributesMask := List.replicate 16 0xFF
  mrsigner := List.replicate 32 0
  isvprodid := 0
  tcbLevels := []

theorem zeroIdentity_widths : Widths zeroIdentity := ⟨rfl, rfl, rfl, rfl, rfl⟩

theorem verifyEnclaveReport_correct_zero :
    NoMismatch (xfrmReport 0) zeroIdentity ↔ Matches (xfrmReport 0) zeroIdentity :=
  (verifyEnclaveReport_correct_iff (xfrmReport 0) zeroIdentity_widths).mpr
    (.inl (by decide +kernel))

/-- The report has a bit of XFRM that the mask covers and the identity forbids. -/
theorem verifyEnclaveReport_ignores_xfrm : Widths zeroIdentity ∧
    ¬ (NoMismatch (xfrmReport 1) zeroIdentity ↔ Matches (xfrmReport 1) zeroIdentity) := by
  refine ⟨zeroIdentity_widths, ?_⟩
  intro agrees
  have passes : NoMismatch (xfrmReport 1) zeroIdentity :=
    (noMismatch_iff (xfrmReport 1) zeroIdentity_widths).mpr (by decide +kernel)
  have differs : ¬ Masked ((xfrmReport 1).get SgxReportBody.attributes)
      zeroIdentity.attributesMask zeroIdentity.attributes := by
    decide +kernel
  exact differs (agrees.mp passes).2

end Conclave.Attestation
