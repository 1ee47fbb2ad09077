import ConclaveFormal.Attestation.SgxTypes
import ConclaveFormal.Common.ConstraintText
import ConclaveFormal.Common.MailKeyDerivation

/-!
# The policy constraint of the persistence key

The constraint is written in the configuration of the enclave.  What the enclave adds to it is
decided on the parsed form and appended to the text.
-/

set_option autoImplicit false

namespace Conclave.Enclave

open Conclave.Lib Conclave.Lib.Json Conclave.Common Conclave.Common.EnclaveConstraint
  Conclave.Attestation

/-! ## The configuration -/

structure PolicyConstraint where
  constraint : JString
  useOwnCodeHash : Bool
  useOwnCodeSignerAndProductID : Bool
  deriving DecidableEq

structure PersistenceKeySpec where
  masterKeyType : MasterKeyType
  policyConstraint : PolicyConstraint
  deriving DecidableEq

/-! ## The identity of the enclave -/

theorem size_mrenclave (reportBody : Cursor SgxReportBody) :
    (reportBody.get SgxReportBody.mrenclave).length = 32 ∨
      (reportBody.get SgxReportBody.mrenclave).length = 64 :=
  Or.inl (reportBody.get_length rfl)

theorem size_mrsigner (reportBody : Cursor SgxReportBody) :
    (reportBody.get SgxReportBody.mrsigner).length = 32 ∨
      (reportBody.get SgxReportBody.mrsigner).length = 64 :=
  Or.inl (reportBody.get_length rfl)

theorem isvProdId_lt (reportBody : Cursor SgxReportBody) :
    ofLittleEndian (reportBody.get SgxReportBody.isvProdId) < 65536 := by
  have width : (reportBody.get SgxReportBody.isvProdId).length = 2 := reportBody.get_length rfl
  have small := ofBigEndian_lt (reportBody.get SgxReportBody.isvProdId).reverse
  rw [List.length_reverse, width] at small
  exact small

def mrenclaveHash (reportBody : Cursor SgxReportBody) : SecureHash :=
  ⟨reportBody.get SgxReportBody.mrenclave, size_mrenclave reportBody⟩

def mrsignerHash (reportBody : Cursor SgxReportBody) : SecureHash :=
  ⟨reportBody.get SgxReportBody.mrsigner, size_mrsigner reportBody⟩

def productId (reportBody : Cursor SgxReportBody) : Fin 65536 :=
  ⟨ofLittleEndian (reportBody.get SgxReportBody.isvProdId), isvProdId_lt reportBody⟩

/-! ## The text that is built -/

section Build

variable (digit : UInt16 → Option Nat) (reportBody : Cursor SgxReportBody)

def appendCodeHash (builder : JString) (parsedUserConstraint : EnclaveConstraint) : JString :=
  if mrenclaveHash reportBody ∉ parsedUserConstraint.acceptableCodeHashes then
    builder ++ jstring " C:" ++ toHexString (mrenclaveHash reportBody).bytes
  else builder

def appendSigner (builder : JString) (parsedUserConstraint : EnclaveConstraint) : JString :=
  if mrsignerHash reportBody ∉ parsedUserConstraint.acceptableSigners then
    builder ++ jstring " S:" ++ toHexString (mrsignerHash reportBody).bytes
  else builder

def appendProductID (builder : JString) (parsedUserConstraint : EnclaveConstraint) :
    Except ConstraintError JString :=
  match parsedUserConstraint.productID with
  | none => .ok (builder ++ jstring " PROD:" ++ intText (productId reportBody).val)
  | some id =>
      if id = productId reportBody then .ok builder
      else .error (.illegalArgument
        (jstring "Cannot apply useOwnCodeSignerAndProductID to the KDS persistence policy " ++
          jstring "constraint as PROD:" ++ intText id.val ++ jstring " is already specified"))

def buildPersistencePolicyConstraint (persistenceKeySpec : PersistenceKeySpec) :
    Except ConstraintError JString := do
  let policyConstraint := persistenceKeySpec.policyConstraint
  let builder := policyConstraint.constraint
  let parsedUserConstraint ← parse digit policyConstraint.constraint false
  let builder :=
    if policyConstraint.useOwnCodeHash then appendCodeHash reportBody builder parsedUserConstraint
    else builder
  if policyConstraint.useOwnCodeSignerAndProductID then
    appendProductID reportBody (appendSigner reportBody builder parsedUserConstraint)
      parsedUserConstraint
  else return builder

end Build

/-! ## The constraint that the text stands for -/

/-- The user's constraint with the parts of the enclave's identity that are asked for. -/
def withOwnIdentity (reportBody : Cursor SgxReportBody) (policyConstraint : PolicyConstraint)
    (user : EnclaveConstraint) : EnclaveConstraint :=
  { user with
    acceptableCodeHashes :=
      if policyConstraint.useOwnCodeHash then
        user.acceptableCodeHashes.insert (mrenclaveHash reportBody)
      else user.acceptableCodeHashes
    acceptableSigners :=
      if policyConstraint.useOwnCodeSignerAndProductID then
        user.acceptableSigners.insert (mrsignerHash reportBody)
      else user.acceptableSigners
    productID :=
      if policyConstraint.useOwnCodeSignerAndProductID then some (productId reportBody)
      else user.productID }

section Policy

variable {digit : UInt16 → Option Nat} {reportBody : Cursor SgxReportBody}
  {builder : JString} {user constraint : EnclaveConstraint}

theorem parse_append {key value : JString} {keyValues : List (JString × JString)}
    {extended : EnclaveConstraint} (split : (tokensOf builder).mapM keyValue = .ok keyValues)
    (plainKey : Plain key) (plainValue : Plain value)
    (parsed : Parsed digit (keyValues ++ [(key, value)]) extended) :
    parse digit (builder ++ space :: token key value) false = .ok extended :=
  parse_of_parsed (tokens_append_token split plainKey plainValue) parsed false

/-- A hash that is in the set already need not be appended. -/
theorem parse_appendCodeHash (parsed : parse digit builder false = .ok constraint)
    (same : constraint.acceptableCodeHashes = user.acceptableCodeHashes) :
    parse digit (appendCodeHash reportBody builder user) false =
      .ok { constraint with
        acceptableCodeHashes := constraint.acceptableCodeHashes.insert
          (mrenclaveHash reportBody) } := by
  rw [appendCodeHash, ← same]
  split
  · obtain ⟨keyValues, split, read⟩ := parsed_of_parse parsed
    have prefixed : jstring " C:" = space :: (jstring "C" ++ [colon]) := by decide
    rw [prefixed, List.append_assoc, List.cons_append, List.append_assoc]
    exact parse_append split (by decide) (plain_toHexString _) (read.append_code _)
  · rename_i listed
    rw [List.insert_of_mem (not_not.mp listed)]
    exact parsed

theorem parse_appendSigner (parsed : parse digit builder false = .ok constraint)
    (same : constraint.acceptableSigners = user.acceptableSigners) :
    parse digit (appendSigner reportBody builder user) false =
      .ok { constraint with
        acceptableSigners := constraint.acceptableSigners.insert (mrsignerHash reportBody) } := by
  rw [appendSigner, ← same]
  split
  · obtain ⟨keyValues, split, read⟩ := parsed_of_parse parsed
    have prefixed : jstring " S:" = space :: (jstring "S" ++ [colon]) := by decide
    rw [prefixed, List.append_assoc, List.cons_append, List.append_assoc]
    exact parse_append split (by decide) (plain_toHexString _) (read.append_signer _)
  · rename_i listed
    rw [List.insert_of_mem (not_not.mp listed)]
    exact parsed

theorem parse_appendProductID (reads : ReadsAscii digit)
    (parsed : parse digit builder false = .ok constraint)
    (same : constraint.productID = user.productID) {text : JString}
    (built : appendProductID reportBody builder user = .ok text) :
    parse digit text false = .ok { constraint with productID := some (productId reportBody) } := by
  rw [appendProductID, ← same] at built
  split at built
  · rename_i missing
    cases built
    obtain ⟨keyValues, split, read⟩ := parsed_of_parse parsed
    have prefixed : jstring " PROD:" = space :: (jstring "PROD" ++ [colon]) := by decide
    rw [prefixed, List.append_assoc, List.cons_append, List.append_assoc]
    exact parse_append split (by decide) (plain_intText _)
      (read.append_productID reads missing _)
  · rename_i id given
    split at built
    · rename_i own
      cases built
      rw [parsed, ← own, ← given]
    · cases built

/-- What is thrown depends on the product ID only. -/
theorem appendProductID_throws :
    (∃ error, appendProductID reportBody builder user = .error error) ↔
      ∃ id, user.productID = some id ∧ id ≠ productId reportBody := by
  rw [appendProductID]
  cases user.productID with
  | none => simp
  | some id =>
      by_cases own : id = productId reportBody
      · simp [own]
      · simp [own]

variable {persistenceKeySpec : PersistenceKeySpec}

/-- The text is parsed as the user's constraint with the identity added that is asked for, and
there is none exactly if a product ID has to be added to a different one. -/
theorem persistence_policy_constraint (reads : ReadsAscii digit)
    (parsed : parse digit persistenceKeySpec.policyConstraint.constraint false = .ok user) :
    (∀ text, buildPersistencePolicyConstraint digit reportBody persistenceKeySpec = .ok text →
      parse digit text false =
        .ok (withOwnIdentity reportBody persistenceKeySpec.policyConstraint user)) ∧
      ((∃ error, buildPersistencePolicyConstraint digit reportBody persistenceKeySpec =
          .error error) ↔
        persistenceKeySpec.policyConstraint.useOwnCodeSignerAndProductID ∧
          ∃ id, user.productID = some id ∧ id ≠ productId reportBody) := by
  rw [buildPersistencePolicyConstraint]
  simp only [bind_of_ok parsed]
  generalize persistenceKeySpec.policyConstraint = policyConstraint at parsed
  obtain ⟨text, useOwnCodeHash, useOwnCodeSignerAndProductID⟩ := policyConstraint
  have coded : parse digit
      (if useOwnCodeHash then appendCodeHash reportBody text user else text) false =
        .ok { user with
          acceptableCodeHashes :=
            if useOwnCodeHash then user.acceptableCodeHashes.insert (mrenclaveHash reportBody)
            else user.acceptableCodeHashes } := by
    cases useOwnCodeHash with
    | false => exact parsed
    | true => exact parse_appendCodeHash parsed rfl
  cases useOwnCodeSignerAndProductID with
  | false =>
      refine ⟨?_, by simp [pure, Except.pure]⟩
      intro built returned
      cases returned
      exact coded
  | true =>
      refine ⟨?_, ?_⟩
      · intro built returned
        have signed := @parse_appendSigner digit reportBody _ user _ coded rfl
        exact parse_appendProductID reads signed rfl returned
      · rw [if_pos rfl, and_iff_right rfl]
        exact appendProductID_throws

theorem size_zeroReportBody : (List.replicate 384 (0 : UInt8)).length = SgxReportBody.size := by
  rw [List.length_replicate]
  rfl

def zeroReportBody : Cursor SgxReportBody := ⟨List.replicate 384 0, size_zeroReportBody⟩

def insecureKeySpec : PersistenceKeySpec where
  masterKeyType := .DEVELOPMENT
  policyConstraint := ⟨jstring "SEC:INSECURE", true, true⟩

def insecureConstraint : EnclaveConstraint where
  acceptableCodeHashes := []
  acceptableSigners := []
  productID := none
  minRevocationLevel := none
  minSecurityLevel := .INSECURE
  maxAttestationAge := none

theorem insecure_policy_constraint :
    (∀ text, buildPersistencePolicyConstraint asciiDigit zeroReportBody insecureKeySpec = .ok text →
      parse asciiDigit text false =
        .ok (withOwnIdentity zeroReportBody insecureKeySpec.policyConstraint
          insecureConstraint)) ∧
      ((∃ error, buildPersistencePolicyConstraint asciiDigit zeroReportBody insecureKeySpec =
          .error error) ↔
        insecureKeySpec.policyConstraint.useOwnCodeSignerAndProductID ∧
          ∃ id, insecureConstraint.productID = some id ∧ id ≠ productId zeroReportBody) :=
  persistence_policy_constraint asciiDigit_readsAscii (eq_ok_of_toOption (by decide))

end Policy

end Conclave.Enclave
