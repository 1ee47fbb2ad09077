import ConclaveFormal.Attestation.Attestation
import ConclaveFormal.Attestation.EnclaveReport
import ConclaveFormal.Common.SGXExtensionASN1Parser
import ConclaveFormal.Lib.FirstMatch

/-!
# The TCB level of a platform

The security versions in the extension of the PCK certificate are compared with the levels of the
TCB information, that of the quoting enclave with the levels of its identity; both searches take the
first level that is not above the platform.  The two results are then merged into one status.
-/

set_option autoImplicit false

namespace Conclave.Attestation

open Conclave.Lib Conclave.Lib.Json Conclave.Common

inductive TcbError where
  | parser (error : ParserError)
  | report (error : ReportError)
  | illegalArgument (message : JString)
  | illegalState (message : JString)
  | generalSecurity (message : JString)
  | indexOutOfBounds
  /-- `VerificationException`. -/
  | QE_IDENTITY_MISMATCH

def SGX_TCB_OID : JString := jstring "1.2.840.113741.1.13.1.2"

def SGX_PCESVN_OID : JString := SGX_TCB_OID ++ jstring ".17"

/-- The security versions in the extension of a PCK certificate. -/
structure PckSvns where
  pckTcbs : List Int
  pckPceSvn : Int
  deriving DecidableEq

/-- The parser of the extension, with its data, and the security version of the quoting enclave. -/
structure PlatformTcb where
  data : Bytes
  pckExtensions : SGXExtensionASN1Parser
  isvSvn : Int

def pckSvns (data : Bytes) (pckExtensions : SGXExtensionASN1Parser) : Except TcbError PckSvns := do
  let pckTcbs ← (List.range 16).mapM fun it =>
    (pckExtensions.getInt data (SGX_TCB_OID ++ jstring "." ++ natText (it + 1))).mapError .parser
  let pckPceSvn ← (pckExtensions.getInt data SGX_PCESVN_OID).mapError .parser
  return ⟨pckTcbs, pckPceSvn⟩

/-- The loop over the components; a level may have too few of them. -/
def isCpuSvnHigherOrEqual : List Int → List Int → Except TcbError Bool
  | [], _ => .ok true
  | _ :: _, [] => .error .indexOutOfBounds
  | svn :: pckTcb, required :: sgxtcbcompsvn =>
      if svn < required then .ok false else isCpuSvnHigherOrEqual pckTcb sgxtcbcompsvn

section Evaluation

variable {Instant : Type}

def matchingLevel (svns : PckSvns) : List (TcbLevel Instant) → Except TcbError (TcbLevel Instant)
  | [] => .error (.generalSecurity (jstring "TCB_NOT_SUPPORTED"))
  | tcbLevel :: tcbLevels => do
      let cpuSvnHigherOrEqual ← isCpuSvnHigherOrEqual svns.pckTcbs tcbLevel.tcb.sgxtcbcompsvn
      if cpuSvnHigherOrEqual && svns.pckPceSvn ≥ tcbLevel.tcb.pcesvn then return tcbLevel
      else matchingLevel svns tcbLevels

def getMatchingTcbLevel (data : Bytes) (pckExtensions : SGXExtensionASN1Parser)
    (tcbInfo : TcbInfo Instant) : Except TcbError (TcbLevel Instant) := do
  let svns ← pckSvns data pckExtensions
  if tcbInfo.id = some .TDX then
    throw (.illegalArgument (jstring "TDX quotes are not supported."))
  matchingLevel svns tcbInfo.tcbLevels

def TcbInfo.Version.id : TcbInfo.Version → Nat
  | V2 => 2
  | V3 => 3

def checkTcbLevel (data : Bytes) (pckExtensions : SGXExtensionASN1Parser)
    (tcbInfo : TcbInfo Instant) : Except TcbError TcbStatus := do
  let tcbLevel ← getMatchingTcbLevel data pckExtensions tcbInfo
  if tcbLevel.tcbStatus = .OutOfDateConfigurationNeeded ∧ tcbInfo.version.id < 2 then
    throw (.illegalState (jstring "TCB_UNRCOGNISED_STATUS"))
  return tcbLevel.tcbStatus

def convergeTcbStatus (tcbLevelStatus : TcbStatus) (qeStatus : Option EnclaveReportStatus) :
    TcbStatus :=
  if qeStatus = some .ISVSVN_OUT_OF_DATE ∧
      (tcbLevelStatus = .UpToDate ∨ tcbLevelStatus = .SWHardeningNeeded) then .OutOfDate
  else if qeStatus = some .ISVSVN_OUT_OF_DATE ∧ (tcbLevelStatus = .ConfigurationNeeded ∨
      tcbLevelStatus = .ConfigurationAndSWHardeningNeeded) then .OutOfDateConfigurationNeeded
  else if qeStatus = some .ISVSVN_REVOKED then .Revoked
  else tcbLevelStatus

/-- The steps of `verifyQuote` that look at security versions. -/
def verifyTcb (platform : PlatformTcb) (tcbInfo : TcbInfo Instant)
    (qeIdentity : EnclaveIdentity Instant) : Except TcbError TcbStatus := do
  let qeIdentityStatus := isvSvnStatus (getTcbStatus platform.isvSvn qeIdentity.tcbLevels)
  let tcbLevelStatus ← checkTcbLevel platform.data platform.pckExtensions tcbInfo
  return convergeTcbStatus tcbLevelStatus qeIdentityStatus

/-- The end of `verifyQuote`, behind the checks of the certificates; the signature of the quote is
checked between the two. -/
def verifyQuoteTcb (data : Bytes) (pckExtensions : SGXExtensionASN1Parser)
    (qeReport : Cursor SgxReportBody) (tcbInfo : TcbInfo Instant)
    (qeIdentity : EnclaveIdentity Instant) : Except TcbError TcbStatus := do
  let qeIdentityStatus ← (verifyEnclaveReport qeReport qeIdentity).mapError .report
  if qeIdentityStatus.any EnclaveReportStatus.isMismatch then throw .QE_IDENTITY_MISMATCH
  let tcbLevelStatus ← checkTcbLevel data pckExtensions tcbInfo
  return convergeTcbStatus tcbLevelStatus qeIdentityStatus

end Evaluation

/-- Behind the comparisons with the identity, only the security versions matter. -/
theorem verifyQuoteTcb_eq {Instant : Type} {data : Bytes} {pckExtensions : SGXExtensionASN1Parser}
    {qeReport : Cursor SgxReportBody} {tcbInfo : TcbInfo Instant}
    {qeIdentity : EnclaveIdentity Instant} (passes : NoMismatch qeReport qeIdentity) :
    verifyQuoteTcb data pckExtensions qeReport tcbInfo qeIdentity =
      verifyTcb ⟨data, pckExtensions, ofLittleEndian (qeReport.get SgxReportBody.isvSvn)⟩
        tcbInfo qeIdentity := by
  obtain ⟨status, verified, notMismatch⟩ := passes
  have accepted : ¬ status.any EnclaveReportStatus.isMismatch = true := by
    cases status with
    | none => exact Bool.false_ne_true
    | some found =>
        rw [Option.any_some, notMismatch found rfl]
        exact Bool.false_ne_true
  have mapped :
      (verifyEnclaveReport qeReport qeIdentity).mapError TcbError.report = .ok status := by
    rw [verified]
    rfl
  rw [verifyQuoteTcb, bind_of_ok mapped, if_neg accepted, verifyTcb,
    ← verifyEnclaveReport_ok verified notMismatch]

/-- The summary that a client sees. -/
def TcbStatus.summary : TcbStatus → Common.Summary
  | UpToDate => .SECURE
  | SWHardeningNeeded | ConfigurationNeeded | ConfigurationAndSWHardeningNeeded
  | OutOfDate | OutOfDateConfigurationNeeded => .STALE
  | Revoked => .INSECURE

theorem DcapAttestation.hardwareSecuritySummary_of_status {P : Platform}
    {attestation : DcapAttestation P} {status : TcbStatus}
    (verified : attestation.verificationStatus = some status) :
    attestation.hardwareSecuritySummary = status.summary := by
  rw [hardwareSecuritySummary, verified]
  cases status <;> rfl

/-! ## The searches -/

section Searches

variable {Instant : Type}

/-- The platform is at or above the level in all seventeen components. -/
def Dominates (svns : PckSvns) (tcbLevel : TcbLevel Instant) : Prop :=
  List.Forall₂ (fun svn required => required ≤ svn) svns.pckTcbs tcbLevel.tcb.sgxtcbcompsvn ∧
    tcbLevel.tcb.pcesvn ≤ svns.pckPceSvn

instance (svns : PckSvns) (tcbLevel : TcbLevel Instant) : Decidable (Dominates svns tcbLevel) :=
  inferInstanceAs (Decidable (_ ∧ _))

theorem isCpuSvnHigherOrEqual_eq {pckTcb required : List Int}
    (sized : pckTcb.length = required.length) :
    isCpuSvnHigherOrEqual pckTcb required =
      .ok (decide (List.Forall₂ (fun svn required => required ≤ svn) pckTcb required)) := by
  induction pckTcb generalizing required with
  | nil =>
      obtain rfl := List.length_eq_zero_iff.mp sized.symm
      rw [decide_eq_true List.Forall₂.nil]
      rfl
  | cons svn pckTcb ih =>
      obtain ⟨least, required, rfl⟩ := List.exists_of_length_succ required sized.symm
      rw [isCpuSvnHigherOrEqual]
      by_cases lower : svn < least
      · rw [if_pos lower]
        congr 1
        refine (decide_eq_false ?_).symm
        intro all
        cases all with
        | cons here _ => omega
      · rw [if_neg lower, ih (Nat.succ.inj sized)]
        congr 1
        rw [decide_eq_decide, List.forall₂_cons]
        constructor
        · intro rest
          exact ⟨by omega, rest⟩
        · intro both
          exact both.2

theorem matchingLevel_eq {svns : PckSvns} {tcbLevels : List (TcbLevel Instant)}
    (sized : ∀ level ∈ tcbLevels, svns.pckTcbs.length = level.tcb.sgxtcbcompsvn.length) :
    matchingLevel svns tcbLevels =
      match tcbLevels.find? fun level => decide (Dominates svns level) with
      | some level => .ok level
      | none => .error (.generalSecurity (jstring "TCB_NOT_SUPPORTED")) := by
  induction tcbLevels with
  | nil => rfl
  | cons level rest ih =>
      rw [matchingLevel,
        bind_of_ok (isCpuSvnHigherOrEqual_eq (sized level List.mem_cons_self))]
      by_cases dominates : Dominates svns level
      · rw [if_pos (by simpa [Dominates] using dominates), List.find?_cons,
          decide_eq_true dominates]
        rfl
      · rw [if_neg (by simpa [Dominates] using dominates), List.find?_cons,
          decide_eq_false dominates]
        exact ih fun other member => sized other (List.mem_cons_of_mem level member)

theorem getTcbStatus_eq (isvSvn : Int) (levels : List (EnclaveTcbLevel Instant)) :
    getTcbStatus isvSvn levels =
      ((levels.find? fun lvl => decide (lvl.tcb.isvsvn ≤ isvSvn)).elim .Revoked
        EnclaveTcbLevel.tcbStatus) := by
  induction levels with
  | nil => rfl
  | cons lvl levels ih =>
      rw [getTcbStatus, List.find?_cons]
      by_cases reached : lvl.tcb.isvsvn ≤ isvSvn
      · rw [if_pos reached, decide_eq_true reached]
        rfl
      · rw [if_neg reached, decide_eq_false reached]
        exact ih

theorem mapM_length {ε α β : Type} {f : α → Except ε β} {inputs : List α} {outputs : List β}
    (ran : inputs.mapM f = .ok outputs) : outputs.length = inputs.length := by
  induction inputs generalizing outputs with
  | nil =>
      cases ran
      rfl
  | cons input inputs ih =>
      rw [List.mapM_cons] at ran
      obtain ⟨output, _, ran⟩ := bind_eq_ok ran
      obtain ⟨rest, ranRest, ran⟩ := bind_eq_ok ran
      cases ran
      rw [List.length_cons, List.length_cons, ih ranRest]

theorem pckSvns_length {data : Bytes} {pckExtensions : SGXExtensionASN1Parser} {svns : PckSvns}
    (read : pckSvns data pckExtensions = .ok svns) : svns.pckTcbs.length = 16 := by
  obtain ⟨pckTcbs, tcbs, rest⟩ := bind_eq_ok read
  obtain ⟨pckPceSvn, _, rest⟩ := bind_eq_ok rest
  cases rest
  exact mapM_length tcbs

/-- The matched level is the first one that the platform dominates. -/
theorem getMatchingTcbLevel_ok_iff {data : Bytes} {pckExtensions : SGXExtensionASN1Parser}
    {svns : PckSvns} {tcbInfo : TcbInfo Instant} {level : TcbLevel Instant}
    (read : pckSvns data pckExtensions = .ok svns) (sgx : tcbInfo.id ≠ some .TDX)
    (sixteen : ∀ level ∈ tcbInfo.tcbLevels, level.tcb.sgxtcbcompsvn.length = 16) :
    getMatchingTcbLevel data pckExtensions tcbInfo = .ok level ↔
      tcbInfo.tcbLevels.find? (fun level => decide (Dominates svns level)) = some level := by
  have sized : ∀ level ∈ tcbInfo.tcbLevels,
      svns.pckTcbs.length = level.tcb.sgxtcbcompsvn.length := by
    intro level member
    rw [pckSvns_length read, sixteen level member]
  rw [getMatchingTcbLevel, bind_of_ok read, if_neg sgx]
  change matchingLevel svns tcbInfo.tcbLevels = .ok level ↔ _
  rw [matchingLevel_eq sized]
  cases tcbInfo.tcbLevels.find? fun level => decide (Dominates svns level) with
  | none => exact iff_of_false (fun impossible => by cases impossible) (by simp)
  | some found =>
      constructor
      · intro same
        cases same
        rfl
      · intro same
        cases same
        rfl

theorem checkTcbLevel_ok_iff {data : Bytes} {pckExtensions : SGXExtensionASN1Parser}
    {tcbInfo : TcbInfo Instant} {status : TcbStatus} :
    checkTcbLevel data pckExtensions tcbInfo = .ok status ↔
      ∃ level, getMatchingTcbLevel data pckExtensions tcbInfo = .ok level ∧
        level.tcbStatus = status := by
  have supported (level : TcbLevel Instant) : ¬ (level.tcbStatus = .OutOfDateConfigurationNeeded ∧
      tcbInfo.version.id < 2) := by
    rintro ⟨-, low⟩
    cases version : tcbInfo.version with
    | V2 =>
        rw [version] at low
        exact absurd low (by decide)
    | V3 =>
        rw [version] at low
        exact absurd low (by decide)
  constructor
  · intro checked
    obtain ⟨level, found, rest⟩ := bind_eq_ok checked
    rw [if_neg (supported level)] at rest
    cases rest
    exact ⟨level, found, rfl⟩
  · rintro ⟨level, found, rfl⟩
    rw [checkTcbLevel, bind_of_ok found, if_neg (supported level)]
    rfl

end Searches

/-! ## A platform that is patched further -/

/-- How good a status of the quoting enclave is. -/
def EnclaveTcbStatus.ordinal : EnclaveTcbStatus → Nat
  | Revoked => 0
  | OutOfDate => 1
  | UpToDate => 2

/-- The merged status is as good as the worse one of the two. -/
theorem convergeTcbStatus_summary (level : TcbStatus) (qe : EnclaveTcbStatus) :
    (convergeTcbStatus level (isvSvnStatus qe)).summary.ordinal =
      min level.summary.ordinal qe.ordinal := by
  cases level <;> cases qe <;> rfl

section Monotone

variable {Instant : Type}

theorem getTcbStatus_mono {levels : List (EnclaveTcbLevel Instant)}
    (ordered : levels.Pairwise fun before after =>
      after.tcbStatus.ordinal ≤ before.tcbStatus.ordinal)
    {isvSvn isvSvn' : Int} (le : isvSvn ≤ isvSvn') :
    (getTcbStatus isvSvn levels).ordinal ≤ (getTcbStatus isvSvn' levels).ordinal := by
  rw [getTcbStatus_eq, getTcbStatus_eq]
  cases found : levels.find? fun lvl => decide (lvl.tcb.isvsvn ≤ isvSvn) with
  | none => exact Nat.zero_le _
  | some lvl =>
      have weaker (other : EnclaveTcbLevel Instant)
          (reached : decide (other.tcb.isvsvn ≤ isvSvn) = true) :
          decide (other.tcb.isvsvn ≤ isvSvn') = true :=
        decide_eq_true ((of_decide_eq_true reached).trans le)
      obtain ⟨other, sooner, order⟩ := find?_weaker weaker ordered found
      rw [sooner]
      rcases order with rfl | better
      · exact le_rfl
      · exact better

theorem forall₂_raise {svns svns' required : List Int}
    (raised : List.Forall₂ (fun svn svn' => svn ≤ svn') svns svns')
    (all : List.Forall₂ (fun svn required => required ≤ svn) svns required) :
    List.Forall₂ (fun svn required => required ≤ svn) svns' required := by
  induction raised generalizing required with
  | nil => exact all
  | cons le _ ih =>
      cases all with
      | cons here rest => exact .cons (here.trans le) (ih rest)

theorem Dominates.mono {svns svns' : PckSvns} {level : TcbLevel Instant}
    (dominates : Dominates svns level)
    (cpuSvn : List.Forall₂ (fun svn svn' => svn ≤ svn') svns.pckTcbs svns'.pckTcbs)
    (pceSvn : svns.pckPceSvn ≤ svns'.pckPceSvn) : Dominates svns' level :=
  ⟨forall₂_raise cpuSvn dominates.1, dominates.2.trans pceSvn⟩

/-- What the steps on security versions return. -/
theorem verifyTcb_ok_iff {platform : PlatformTcb} {svns : PckSvns} {tcbInfo : TcbInfo Instant}
    {qeIdentity : EnclaveIdentity Instant} {status : TcbStatus}
    (read : pckSvns platform.data platform.pckExtensions = .ok svns)
    (sgx : tcbInfo.id ≠ some .TDX)
    (sixteen : ∀ level ∈ tcbInfo.tcbLevels, level.tcb.sgxtcbcompsvn.length = 16) :
    verifyTcb platform tcbInfo qeIdentity = .ok status ↔
      ∃ level, tcbInfo.tcbLevels.find? (fun level => decide (Dominates svns level)) = some level ∧
        convergeTcbStatus level.tcbStatus
          (isvSvnStatus (getTcbStatus platform.isvSvn qeIdentity.tcbLevels)) = status := by
  constructor
  · intro verified
    obtain ⟨levelStatus, checked, rest⟩ := bind_eq_ok verified
    cases rest
    obtain ⟨level, found, rfl⟩ := checkTcbLevel_ok_iff.mp checked
    exact ⟨level, (getMatchingTcbLevel_ok_iff read sgx sixteen).mp found, rfl⟩
  · rintro ⟨level, found, rfl⟩
    have matched := (getMatchingTcbLevel_ok_iff read sgx sixteen).mpr found
    rw [verifyTcb, bind_of_ok (checkTcbLevel_ok_iff.mpr ⟨level, matched, rfl⟩)]
    rfl

theorem tcbEvaluation_monotone {first second : PlatformTcb} {svns svns' : PckSvns}
    {tcbInfo : TcbInfo Instant} {qeIdentity : EnclaveIdentity Instant}
    (read : pckSvns first.data first.pckExtensions = .ok svns)
    (read' : pckSvns second.data second.pckExtensions = .ok svns')
    (cpuSvn : List.Forall₂ (fun svn svn' => svn ≤ svn') svns.pckTcbs svns'.pckTcbs)
    (pceSvn : svns.pckPceSvn ≤ svns'.pckPceSvn) (isvSvn : first.isvSvn ≤ second.isvSvn)
    (sgx : tcbInfo.id ≠ some .TDX)
    (sixteen : ∀ level ∈ tcbInfo.tcbLevels, level.tcb.sgxtcbcompsvn.length = 16)
    (ordered : tcbInfo.tcbLevels.Pairwise fun before after =>
      after.tcbStatus.summary.ordinal ≤ before.tcbStatus.summary.ordinal)
    (qeOrdered : qeIdentity.tcbLevels.Pairwise fun before after =>
      after.tcbStatus.ordinal ≤ before.tcbStatus.ordinal) :
    (∀ status, verifyTcb first tcbInfo qeIdentity = .ok status →
      ∃ status', verifyTcb second tcbInfo qeIdentity = .ok status' ∧
        status.summary.ordinal ≤ status'.summary.ordinal) ∧
    ∀ level, getMatchingTcbLevel first.data first.pckExtensions tcbInfo = .ok level ↔
      FirstMatch (Dominates svns) tcbInfo.tcbLevels level := by
  constructor
  · intro status verified
    obtain ⟨level, found, rfl⟩ := (verifyTcb_ok_iff read sgx sixteen).mp verified
    have weaker (other : TcbLevel Instant) (holds : decide (Dominates svns other) = true) :
        decide (Dominates svns' other) = true :=
      decide_eq_true ((of_decide_eq_true holds).mono cpuSvn pceSvn)
    obtain ⟨other, sooner, order⟩ := find?_weaker weaker ordered found
    refine ⟨_, (verifyTcb_ok_iff read' sgx sixteen).mpr ⟨other, sooner, rfl⟩, ?_⟩
    have better : level.tcbStatus.summary.ordinal ≤ other.tcbStatus.summary.ordinal := by
      rcases order with rfl | better
      · exact le_rfl
      · exact better
    rw [convergeTcbStatus_summary, convergeTcbStatus_summary]
    exact min_le_min better (getTcbStatus_mono qeOrdered isvSvn)
  · intro level
    rw [getMatchingTcbLevel_ok_iff read sgx sixteen, find?_eq_some_iff_firstMatch]
    simp only [decide_eq_true_eq]

end Monotone

/-- An extension with the same number in all its components. -/
def evenPlatform (svn : UInt8) (isvSvn : Int) : PlatformTcb where
  data := [svn]
  pckExtensions :=
    { offset := 1
      values := AssocMap.putKeys
        ((List.range 17).map fun i => SGX_TCB_OID ++ jstring "." ++ natText (i + 1)) ⟨0, 1⟩ ∅
      types := AssocMap.putKeys
        ((List.range 17).map fun i => SGX_TCB_OID ++ jstring "." ++ natText (i + 1)) INT_TAG ∅
      sequences := ∅ }
  isvSvn := isvSvn

def evenLevel (svn : Int) (tcbStatus : TcbStatus) : TcbLevel Unit :=
  ⟨⟨List.replicate 16 svn, svn⟩, (), tcbStatus, none⟩

def evenTcbInfo : TcbInfo Unit where
  id := some .SGX
  version := .V3
  issueDate := ()
  nextUpdate := ()
  fmspc := []
  pceId := []
  tcbType := 0
  tcbEvaluationDataNumber := 0
  tcbLevels := [evenLevel 2 .UpToDate, evenLevel 1 .OutOfDate]

def evenIdentity : EnclaveIdentity Unit :=
  { zeroIdentity with tcbLevels := [⟨⟨2⟩, (), .UpToDate⟩, ⟨⟨1⟩, (), .OutOfDate⟩] }

theorem tcbEvaluation_even :
    (∀ status, verifyTcb (evenPlatform 1 1) evenTcbInfo evenIdentity = .ok status →
      ∃ status', verifyTcb (evenPlatform 2 2) evenTcbInfo evenIdentity = .ok status' ∧
        status.summary.ordinal ≤ status'.summary.ordinal) ∧
    ∀ level, getMatchingTcbLevel (evenPlatform 1 1).data (evenPlatform 1 1).pckExtensions
        evenTcbInfo = .ok level ↔
      FirstMatch (Dominates ⟨List.replicate 16 1, 1⟩) evenTcbInfo.tcbLevels level := by
  have read : pckSvns (evenPlatform 1 1).data (evenPlatform 1 1).pckExtensions =
      .ok ⟨List.replicate 16 1, 1⟩ := eq_ok_of_toOption (by decide +kernel)
  have read' : pckSvns (evenPlatform 2 2).data (evenPlatform 2 2).pckExtensions =
      .ok ⟨List.replicate 16 2, 2⟩ := eq_ok_of_toOption (by decide +kernel)
  exact tcbEvaluation_monotone read read' (by decide) (by decide) (by decide) (by decide)
    (by decide) (by decide) (by decide)

end Conclave.Attestation
