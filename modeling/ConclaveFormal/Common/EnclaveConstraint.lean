import ConclaveFormal.Lib.Decimal
import ConclaveFormal.Lib.Hex
import ConclaveFormal.Lib.Json
import ConclaveFormal.Mail.StateIdHeader

/-!
# Enclave constraints

A constraint is written as space-separated `key:value` tokens.  Parsing also checks
the criteria, so the text of a constraint is read back exactly when they are valid.
-/

set_option autoImplicit false

namespace Conclave.Common

open Conclave.Lib Conclave.Lib.Json

/-! ## Criteria -/

/-- `SHA256Hash` or `SHA512Hash`, by the number of bytes. -/
structure SecureHash where
  bytes : Bytes
  size : bytes.length = 32 ∨ bytes.length = 64
  deriving DecidableEq

inductive Summary where
  | INSECURE
  | STALE
  | SECURE
  deriving DecidableEq, Repr

def Summary.ordinal : Summary → Nat
  | INSECURE => 0
  | STALE => 1
  | SECURE => 2

def Summary.name : Summary → JString
  | INSECURE => jstring "INSECURE"
  | STALE => jstring "STALE"
  | SECURE => jstring "SECURE"

/-- A period whose fields are 32-bit integers. -/
abbrev AttestationAge := { period : Period // period.InRange }

/-- The sets are lists in the order of iteration.  The setters check the ranges of the
product ID and of the revocation level. -/
structure EnclaveConstraint where
  acceptableCodeHashes : List SecureHash
  acceptableSigners : List SecureHash
  productID : Option (Fin 65536)
  minRevocationLevel : Option (Fin (2 ^ 31))
  minSecurityLevel : Summary
  maxAttestationAge : Option AttestationAge
  deriving DecidableEq

def sameSet {α : Type} (first second : List α) : Prop :=
  ∀ element, element ∈ first ↔ element ∈ second

namespace EnclaveConstraint

/-- `equals`. -/
structure Equal (first second : EnclaveConstraint) : Prop where
  acceptableCodeHashes : sameSet first.acceptableCodeHashes second.acceptableCodeHashes
  acceptableSigners : sameSet first.acceptableSigners second.acceptableSigners
  productID : first.productID = second.productID
  minRevocationLevel : first.minRevocationLevel = second.minRevocationLevel
  minSecurityLevel : first.minSecurityLevel = second.minSecurityLevel
  maxAttestationAge : first.maxAttestationAge = second.maxAttestationAge

inductive ConstraintError where
  | illegalArgument (message : JString)
  | illegalState (message : JString)
  | numberFormat (text : JString)
  | dateTimeParse (text : JString)
  deriving DecidableEq

def check (condition : Bool) (message : String) : Except ConstraintError Unit :=
  if condition then .ok () else .error (.illegalState (jstring message))

def checkCriteriaValid (constraint : EnclaveConstraint) : Except ConstraintError Unit := do
  check (!constraint.acceptableCodeHashes.isEmpty || !constraint.acceptableSigners.isEmpty)
    "Either a code hash or a code signer must be provided."
  if constraint.productID.isSome then
    check (!constraint.acceptableSigners.isEmpty)
      "A code signer must be provided with a product ID."
  if !constraint.acceptableSigners.isEmpty then
    check constraint.productID.isSome "A product ID must be provided with a code signer."

theorem checkCriteriaValid_error {constraint : EnclaveConstraint} {error : ConstraintError}
    (invalid : constraint.checkCriteriaValid = .error error) :
    ∃ message, error = .illegalState message := by
  simp only [checkCriteriaValid, check] at invalid
  generalize constraint.acceptableCodeHashes.isEmpty = noCodeHashes at invalid
  generalize constraint.acceptableSigners.isEmpty = noSigners at invalid
  generalize constraint.productID.isSome = hasProductID at invalid
  cases noCodeHashes <;> cases noSigners <;> cases hasProductID <;> cases invalid <;>
    exact ⟨_, rfl⟩

end EnclaveConstraint

/-! ## Checking an enclave -/

structure EnclaveInfo where
  codeHash : SecureHash
  codeSigningKeyHash : SecureHash
  productID : Int
  revocationLevel : Int

/-- `withinAge` tells whether the attestation is younger than the age when it is checked. -/
structure EnclaveInstanceInfo where
  encryptionKey : Mail.Curve25519PublicKey
  enclaveInfo : EnclaveInfo
  securitySummary : Summary
  withinAge : AttestationAge → Bool

inductive CheckError where
  | criteria (error : EnclaveConstraint.ConstraintError)
  | invalidEnclave (message : JString)
  deriving DecidableEq

namespace EnclaveConstraint

def checkEnclave (value : Bool) (message : JString) : Except CheckError Unit :=
  if value then .ok () else .error (.invalidEnclave message)

def joinToString (hashes : List SecureHash) : JString :=
  (jstring ", ").intercalate (hashes.map fun hash => toHexString hash.bytes)

def checkIdentity (constraint : EnclaveConstraint) (enclave : EnclaveInfo) :
    Except CheckError Unit :=
  let codeHashes := constraint.acceptableCodeHashes
  let signers := constraint.acceptableSigners
  if !codeHashes.isEmpty && signers.isEmpty then
    checkEnclave (codeHashes.contains enclave.codeHash)
      (jstring "Enclave code hash does not match any of the acceptable code hashes. " ++
        jstring "(measurement hash " ++ toHexString enclave.codeHash.bytes ++
        jstring " vs acceptable " ++ joinToString codeHashes)
  else if codeHashes.isEmpty && !signers.isEmpty then
    checkEnclave (signers.contains enclave.codeSigningKeyHash)
      (jstring "Enclave code signer does not match any of the acceptable code signers. " ++
        jstring "(key hash " ++ toHexString enclave.codeSigningKeyHash.bytes ++
        jstring " vs acceptable " ++ joinToString signers ++ jstring ")")
  else
    checkEnclave
      (codeHashes.contains enclave.codeHash || signers.contains enclave.codeSigningKeyHash)
      (jstring "Enclave does not match any of the acceptable code hashes or code signers.")

def checkProductID (constraint : EnclaveConstraint) (enclave : EnclaveInfo) :
    Except CheckError Unit :=
  match constraint.productID with
  | none => .ok ()
  | some id =>
      checkEnclave (enclave.productID == id.val)
        (jstring "Enclave has a product ID of " ++ intText enclave.productID ++
          jstring " which does not match the criteria of " ++ intText id.val ++ jstring ".")

def checkRevocationLevel (constraint : EnclaveConstraint) (enclave : EnclaveInfo) :
    Except CheckError Unit :=
  match constraint.minRevocationLevel with
  | none => .ok ()
  | some level =>
      checkEnclave (level.val ≤ enclave.revocationLevel)
        (jstring "Enclave has a revocation level of " ++ intText enclave.revocationLevel ++
          jstring " which is lower than the required level of " ++ intText level.val ++
          jstring ".")

def checkSecurityLevel (constraint : EnclaveConstraint) (summary : Summary) :
    Except CheckError Unit :=
  let required := constraint.minSecurityLevel
  if required = .INSECURE then
    checkEnclave (summary = required)
      (jstring "Enclave has a security level of " ++ summary.name ++
        jstring " which does not match the required level of " ++ required.name ++ jstring ".")
  else
    checkEnclave (required.ordinal ≤ summary.ordinal)
      (jstring "Enclave has a security level of " ++ summary.name ++
        jstring " which is lower than the required level of " ++ required.name ++ jstring ".")

def checkAge (constraint : EnclaveConstraint) (enclave : EnclaveInstanceInfo) :
    Except CheckError Unit :=
  match constraint.maxAttestationAge with
  | none => .ok ()
  | some age =>
      checkEnclave (enclave.withinAge age)
        (jstring "Enclave attestation data is out of date with an age that exceeds " ++
          age.val.text ++ jstring ".")

/-- `check(enclave)`. -/
def checkAgainst (constraint : EnclaveConstraint) (enclave : EnclaveInstanceInfo) :
    Except CheckError Unit := do
  constraint.checkCriteriaValid.mapError .criteria
  constraint.checkIdentity enclave.enclaveInfo
  constraint.checkProductID enclave.enclaveInfo
  constraint.checkRevocationLevel enclave.enclaveInfo
  constraint.checkSecurityLevel enclave.securitySummary
  constraint.checkAge enclave

/-! ## The text of a constraint -/

def colon : UInt16 := 0x3A

def space : UInt16 := 0x20

def token (key : JString) (value : JString) : JString := key ++ colon :: value

def optionalToken {α : Type} (key : String) (text : α → JString) : Option α → List JString
  | none => []
  | some value => [token (jstring key) (text value)]

def tokens (constraint : EnclaveConstraint) : List JString :=
  constraint.acceptableCodeHashes.map (fun hash => token (jstring "C") (toHexString hash.bytes)) ++
    constraint.acceptableSigners.map (fun hash => token (jstring "S") (toHexString hash.bytes)) ++
    optionalToken "PROD" (fun id => intText id.val) constraint.productID ++
    optionalToken "REVOKE" (fun level => intText level.val) constraint.minRevocationLevel ++
    optionalToken "EXPIRE" (fun age => age.val.text) constraint.maxAttestationAge ++
    [token (jstring "SEC") constraint.minSecurityLevel.name]

/-- `toString`. -/
def text (constraint : EnclaveConstraint) : JString := [space].intercalate constraint.tokens

/-! ## Parsing -/

def keys : List JString :=
  [jstring "C", jstring "S", jstring "PROD", jstring "REVOKE", jstring "SEC", jstring "EXPIRE"]

def keyValue (token : JString) : Except ConstraintError (JString × JString) :=
  match token.splitOn colon with
  | [key, value] => .ok (key, value)
  | _ => .error (.illegalArgument (jstring "Invalid token: " ++ token))

/-- The values of a key, in the order of the tokens. -/
def values (keyValues : List (JString × JString)) (key : String) : List JString :=
  keyValues.filterMap fun entry => if entry.1 = jstring key then some entry.2 else none

def getSingleOrNone (keyValues : List (JString × JString)) (key : String) :
    Except ConstraintError (Option JString) :=
  match values keyValues key with
  | [] => .ok none
  | [value] => .ok (some value)
  | _ => .error (.illegalArgument
      (jstring "More than one " ++ jstring key ++ jstring " defined"))

/-- `parseHex(str.uppercase())`. -/
def parseUppercaseHex (str : JString) : Except ConstraintError Bytes :=
  match parseHex (uppercase str) with
  | some bytes => .ok bytes
  | none =>
      if (uppercase str).length % 2 = 0 then
        .error (.illegalArgument
          (jstring "contains illegal character for hexBinary: " ++ uppercase str))
      else
        .error (.illegalArgument
          (jstring "hex binary needs to be even-length: " ++ uppercase str))

/-- `SHA256Hash.parse` and `SHA512Hash.parse`. -/
def parseSized (length : Nat) (admitted : length = 32 ∨ length = 64) (str : JString) :
    Except ConstraintError SecureHash := do
  let bytes ← parseUppercaseHex str
  if size : bytes.length = length then .ok ⟨bytes, by rw [size]; exact admitted⟩
  else .error (.illegalArgument (jstring "Provided string is " ++ natText bytes.length ++
    jstring " bytes not " ++ natText length ++ jstring " bytes in hex: " ++ str))

/-- `SecureHash.parse`; the length is that of the text before it is put in upper case. -/
def parseHash (str : JString) : Except ConstraintError SecureHash :=
  if str.length = 64 then parseSized 32 (.inl rfl) str
  else if str.length = 128 then parseSized 64 (.inr rfl) str
  else .error (.illegalArgument
    (jstring "Provided string is neither a SHA-256 or a SHA-512 string: " ++ str))

/-- Adding the hashes to a set one by one. -/
def addAll (hashes : List SecureHash) : List SecureHash :=
  hashes.foldl (fun set hash => set.insert hash) []

section Parse

variable (digit : UInt16 → Option Nat)

def toInt (text : JString) : Except ConstraintError Int :=
  match parseInt digit text with
  | some value => .ok value
  | none => .error (.numberFormat text)

def setProductID : Option Int → Except ConstraintError (Option (Fin 65536))
  | none => .ok none
  | some value =>
      if value < 0 then .error (.illegalArgument (jstring "Product ID is negative."))
      else if range : value.toNat < 65536 then .ok (some ⟨value.toNat, range⟩)
      else .error (.illegalArgument (jstring "Product ID is not a 16-bit number."))

/-- The upper bound is that of the integer type. -/
def setMinRevocationLevel : Option Int → Except ConstraintError (Option (Fin (2 ^ 31)))
  | none => .ok none
  | some value =>
      if range : 0 ≤ value ∧ value.toNat < 2 ^ 31 then .ok (some ⟨value.toNat, range.2⟩)
      else .error (.illegalArgument (jstring "Min revocation level is negative."))

def Summary.valueOf (name : JString) : Except ConstraintError Summary :=
  match [Summary.INSECURE, .STALE, .SECURE].find? fun summary => summary.name == name with
  | some summary => .ok summary
  | none => .error (.illegalArgument
      (jstring "No enum constant com.r3.conclave.common.EnclaveSecurityInfo.Summary." ++ name))

def parsePeriod (text : JString) : Except ConstraintError AttestationAge :=
  match Period.parse text with
  | some period =>
      if inRange : period.InRange then .ok ⟨period, inRange⟩ else .error (.dateTimeParse text)
  | none => .error (.dateTimeParse text)

def optional {α β : Type} (f : α → Except ConstraintError β) :
    Option α → Except ConstraintError (Option β)
  | none => .ok none
  | some value => (f value).map some

def parse (descriptor : JString) (checkValidity : Bool) :
    Except ConstraintError EnclaveConstraint := do
  let keyValues ← ((descriptor.splitOn space).filter fun token => !token.isEmpty).mapM keyValue
  let unknown := (keyValues.map Prod.fst).eraseDups.filter fun key => !keys.contains key
  if !unknown.isEmpty then
    .error (.illegalArgument
      (jstring "Unknown keys [" ++ (jstring ", ").intercalate unknown ++ jstring "]"))
  let codeHashes ← (values keyValues "C").mapM parseHash
  let signers ← (values keyValues "S").mapM parseHash
  let productID ← optional (toInt digit) (← getSingleOrNone keyValues "PROD")
  let productID ← setProductID productID
  let level ← optional (toInt digit) (← getSingleOrNone keyValues "REVOKE")
  let level ← setMinRevocationLevel level
  let security ← optional Summary.valueOf (← getSingleOrNone keyValues "SEC")
  let age ← optional parsePeriod (← getSingleOrNone keyValues "EXPIRE")
  let constraint : EnclaveConstraint := {
    acceptableCodeHashes := addAll codeHashes
    acceptableSigners := addAll signers
    productID := productID
    minRevocationLevel := level
    minSecurityLevel := security.getD .STALE
    maxAttestationAge := age }
  if checkValidity then
    checkCriteriaValid constraint
  return constraint

end Parse

/-! ## The text is read back -/

def optionalEntry {α : Type} (key : String) (text : α → JString) :
    Option α → List (JString × JString)
  | none => []
  | some value => [(jstring key, text value)]

def hashEntries (key : String) (hashes : List SecureHash) : List (JString × JString) :=
  hashes.map fun hash => (jstring key, toHexString hash.bytes)

/-- The keys and values of the tokens. -/
def entries (constraint : EnclaveConstraint) : List (JString × JString) :=
  hashEntries "C" constraint.acceptableCodeHashes ++
    (hashEntries "S" constraint.acceptableSigners ++
    (optionalEntry "PROD" (fun id => intText id.val) constraint.productID ++
    (optionalEntry "REVOKE" (fun level => intText level.val) constraint.minRevocationLevel ++
    (optionalEntry "EXPIRE" (fun age => age.val.text) constraint.maxAttestationAge ++
    [(jstring "SEC", constraint.minSecurityLevel.name)]))))

theorem optionalToken_eq {α : Type} (key : String) (text : α → JString) (value : Option α) :
    optionalToken key text value =
      (optionalEntry key text value).map fun entry => token entry.1 entry.2 := by
  cases value <;> rfl

theorem tokens_eq (constraint : EnclaveConstraint) :
    constraint.tokens = constraint.entries.map fun entry => token entry.1 entry.2 := by
  simp only [tokens, entries, hashEntries, optionalToken_eq, List.map_append, List.map_map,
    List.append_assoc, List.map_cons, List.map_nil, Function.comp_def]

/-- A text that stays in one piece when it is split. -/
def Plain (text : JString) : Prop := ∀ unit ∈ text, unit ≠ space ∧ unit ≠ colon

instance (text : JString) : Decidable (Plain text) :=
  List.decidableBAll (fun unit => unit ≠ space ∧ unit ≠ colon) text

theorem plain_append {front back : JString} (plainFront : Plain front) (plainBack : Plain back) :
    Plain (front ++ back) := by
  intro unit member
  rcases List.mem_append.mp member with inFront | inBack
  · exact plainFront unit inFront
  · exact plainBack unit inBack

theorem plain_toHexString (bytes : Bytes) : Plain (toHexString bytes) := by
  apply toHexString_forall
  intro value small
  interval_cases value <;> decide

theorem plain_natText (value : Nat) : Plain (natText value) := by
  obtain ⟨digits, text, _, small, _⟩ := natText_digits value
  intro unit member
  rw [text] at member
  obtain ⟨digit, inDigits, rfl⟩ := List.mem_map.mp member
  have range := small digit inDigits
  interval_cases digit <;> decide

theorem plain_intText (value : Int) : Plain (intText value) := by
  rw [intText]
  split
  · intro unit member
    rcases List.mem_cons.mp member with rfl | inText
    · decide
    · exact plain_natText _ unit inText
  · exact plain_natText _

theorem plain_fieldText (value : Int) {unit : UInt16} (plain : Plain [unit]) :
    Plain (Period.fieldText value unit) := by
  rw [Period.fieldText]
  split
  · decide
  · exact plain_append (plain_intText value) plain

theorem plain_period (period : Period) : Plain period.text := by
  rw [Period.text]
  split
  · decide
  · have letter : Plain [0x50] := by decide
    refine plain_append letter (plain_append (plain_append ?_ ?_) ?_)
    · exact plain_fieldText _ (by decide)
    · exact plain_fieldText _ (by decide)
    · exact plain_fieldText _ (by decide)

theorem plain_summary (summary : Summary) : Plain summary.name := by
  cases summary <;> decide

theorem entries_plain (constraint : EnclaveConstraint) :
    ∀ entry ∈ constraint.entries, entry.1 ∈ keys ∧ Plain entry.1 ∧ Plain entry.2 := by
  have hashes : ∀ (key : String) (list : List SecureHash), jstring key ∈ keys →
      Plain (jstring key) → ∀ entry ∈ hashEntries key list,
        entry.1 ∈ keys ∧ Plain entry.1 ∧ Plain entry.2 := by
    intro key list known plain entry member
    obtain ⟨hash, _, rfl⟩ := List.mem_map.mp member
    exact ⟨known, plain, plain_toHexString hash.bytes⟩
  have optional : ∀ {α : Type} (key : String) (text : α → JString) (value : Option α),
      jstring key ∈ keys → Plain (jstring key) → (∀ value, Plain (text value)) →
      ∀ entry ∈ optionalEntry key text value,
        entry.1 ∈ keys ∧ Plain entry.1 ∧ Plain entry.2 := by
    intro α key text value known plain plainText entry member
    cases value with
    | none => cases member
    | some value =>
        rw [List.mem_singleton.mp member]
        exact ⟨known, plain, plainText value⟩
  intro entry member
  simp only [entries, List.mem_append, List.mem_singleton] at member
  rcases member with inCodes | inSigners | inProduct | inLevel | inAge | rfl
  · exact hashes _ _ (by decide) (by decide) entry inCodes
  · exact hashes _ _ (by decide) (by decide) entry inSigners
  · exact optional _ _ _ (by decide) (by decide) (fun _ => plain_intText _) entry inProduct
  · exact optional _ _ _ (by decide) (by decide) (fun _ => plain_intText _) entry inLevel
  · exact optional _ _ _ (by decide) (by decide) (fun _ => plain_period _) entry inAge
  · have known : jstring "SEC" ∈ keys ∧ Plain (jstring "SEC") := by decide
    exact ⟨known.1, known.2, plain_summary _⟩

theorem keyValue_token {key value : JString} (plainKey : Plain key) (plainValue : Plain value) :
    keyValue (token key value) = .ok (key, value) := by
  have joined : token key value = [colon].intercalate [key, value] := by
    simp [token, List.intercalate]
  have split : ([colon].intercalate [key, value]).splitOn colon = [key, value] := by
    apply List.splitOn_intercalate
    · intro part member inPart
      rcases List.mem_pair.mp member with rfl | rfl
      · exact (plainKey colon inPart).2 rfl
      · exact (plainValue colon inPart).2 rfl
    · simp
  rw [keyValue, joined, split]

theorem splitOn_text (constraint : EnclaveConstraint) :
    (constraint.text.splitOn space).filter (fun token => !token.isEmpty) =
      constraint.tokens := by
  have nonempty : constraint.tokens ≠ [] := by simp [tokens]
  have free : ∀ part ∈ constraint.tokens, space ∉ part := by
    intro part member inPart
    rw [tokens_eq] at member
    obtain ⟨entry, inEntries, rfl⟩ := List.mem_map.mp member
    obtain ⟨_, plainKey, plainValue⟩ := constraint.entries_plain entry inEntries
    rcases List.mem_append.mp inPart with inKey | inValue
    · exact (plainKey space inKey).1 rfl
    · rcases List.mem_cons.mp inValue with isColon | inValue
      · exact absurd isColon (by decide)
      · exact (plainValue space inValue).1 rfl
  rw [text, List.splitOn_intercalate space free nonempty, List.filter_eq_self]
  intro part member
  rw [tokens_eq] at member
  obtain ⟨entry, _, rfl⟩ := List.mem_map.mp member
  simp [token]

theorem mapM_keyValue {list : List (JString × JString)}
    (plain : ∀ entry ∈ list, Plain entry.1 ∧ Plain entry.2) :
    (list.map fun entry => token entry.1 entry.2).mapM keyValue = .ok list := by
  induction list with
  | nil => rfl
  | cons entry list ih =>
      have first := plain entry List.mem_cons_self
      have later := ih fun other member => plain other (List.mem_cons_of_mem entry member)
      rw [List.map_cons, List.mapM_cons, keyValue_token first.1 first.2, later]
      rfl

theorem keyValues_text (constraint : EnclaveConstraint) :
    ((constraint.text.splitOn space).filter fun token => !token.isEmpty).mapM keyValue =
      .ok constraint.entries := by
  rw [splitOn_text, tokens_eq]
  exact mapM_keyValue fun entry member => (constraint.entries_plain entry member).2

theorem values_append (front back : List (JString × JString)) (key : String) :
    values (front ++ back) key = values front key ++ values back key :=
  List.filterMap_append

theorem values_hashEntries (key : String) (hashes : List SecureHash) :
    values (hashEntries key hashes) key = hashes.map fun hash => toHexString hash.bytes := by
  rw [values, hashEntries, List.filterMap_map, ← List.filterMap_eq_map]
  congr 1
  funext hash
  simp

theorem values_hashEntries_other {key other : String} (different : jstring other ≠ jstring key)
    (hashes : List SecureHash) : values (hashEntries other hashes) key = [] := by
  rw [values, List.filterMap_eq_nil_iff]
  intro entry member
  obtain ⟨hash, _, rfl⟩ := List.mem_map.mp member
  exact if_neg different

theorem values_optionalEntry {α : Type} (key : String) (text : α → JString) (value : Option α) :
    values (optionalEntry key text value) key = (value.map text).toList := by
  cases value with
  | none => rfl
  | some value => simp [values, optionalEntry]

theorem values_optionalEntry_other {α : Type} {key other : String}
    (different : jstring other ≠ jstring key) (text : α → JString) (value : Option α) :
    values (optionalEntry other text value) key = [] := by
  cases value with
  | none => rfl
  | some value => simp [values, optionalEntry, different]

theorem values_single {key other : String} (value : JString) :
    values [(jstring other, value)] key = if jstring other = jstring key then [value] else [] := by
  by_cases same : jstring other = jstring key
  · simp [values, same]
  · simp [values, same]

theorem getSingleOrNone_toList {keyValues : List (JString × JString)} {key : String}
    {value : Option JString} (found : values keyValues key = value.toList) :
    getSingleOrNone keyValues key = .ok value := by
  rw [getSingleOrNone, found]
  cases value <;> rfl

/-- What is found under each key of the entries. -/
theorem values_entries (constraint : EnclaveConstraint) :
    values constraint.entries "C" =
        constraint.acceptableCodeHashes.map (fun hash => toHexString hash.bytes) ∧
      values constraint.entries "S" =
        constraint.acceptableSigners.map (fun hash => toHexString hash.bytes) ∧
      values constraint.entries "PROD" =
        (constraint.productID.map fun id => intText id.val).toList ∧
      values constraint.entries "REVOKE" =
        (constraint.minRevocationLevel.map fun level => intText level.val).toList ∧
      values constraint.entries "SEC" = [constraint.minSecurityLevel.name] ∧
      values constraint.entries "EXPIRE" =
        (constraint.maxAttestationAge.map fun age => age.val.text).toList := by
  refine ⟨?_, ?_, ?_, ?_, ?_, ?_⟩
  all_goals
    rw [entries]
    simp only [values_append, values_single]
  · rw [values_hashEntries, values_hashEntries_other (by decide),
      values_optionalEntry_other (by decide), values_optionalEntry_other (by decide),
      values_optionalEntry_other (by decide), if_neg (by decide)]
    simp
  · rw [values_hashEntries, values_hashEntries_other (by decide),
      values_optionalEntry_other (by decide), values_optionalEntry_other (by decide),
      values_optionalEntry_other (by decide), if_neg (by decide)]
    simp
  · rw [values_optionalEntry, values_hashEntries_other (by decide),
      values_hashEntries_other (by decide), values_optionalEntry_other (by decide),
      values_optionalEntry_other (by decide), if_neg (by decide)]
    simp
  · rw [values_optionalEntry, values_hashEntries_other (by decide),
      values_hashEntries_other (by decide), values_optionalEntry_other (by decide),
      values_optionalEntry_other (by decide), if_neg (by decide)]
    simp
  · rw [values_hashEntries_other (by decide), values_hashEntries_other (by decide),
      values_optionalEntry_other (by decide), values_optionalEntry_other (by decide),
      values_optionalEntry_other (by decide)]
    simp
  · rw [values_optionalEntry, values_hashEntries_other (by decide),
      values_hashEntries_other (by decide), values_optionalEntry_other (by decide),
      values_optionalEntry_other (by decide), if_neg (by decide)]
    simp

theorem parseUppercaseHex_toHexString (bytes : Bytes) :
    parseUppercaseHex (toHexString bytes) = .ok bytes := by
  rw [parseUppercaseHex, uppercase_toHexString, parseHex_toHexString]

theorem parseHash_toHexString (hash : SecureHash) :
    parseHash (toHexString hash.bytes) = .ok hash := by
  obtain ⟨bytes, size⟩ := hash
  have length := toHexString_length bytes
  rcases size with short | long
  · rw [parseHash, if_pos (by rw [length, short]), parseSized, parseUppercaseHex_toHexString]
    exact dif_pos short
  · rw [parseHash, if_neg (by rw [length, long]; decide), if_pos (by rw [length, long]),
      parseSized, parseUppercaseHex_toHexString]
    exact dif_pos long

theorem mapM_parseHash (hashes : List SecureHash) :
    (hashes.map fun hash => toHexString hash.bytes).mapM parseHash = .ok hashes := by
  induction hashes with
  | nil => rfl
  | cons hash hashes ih =>
      rw [List.map_cons, List.mapM_cons, parseHash_toHexString, ih]
      rfl

theorem setProductID_val (id : Option (Fin 65536)) :
    setProductID (id.map fun id => (id.val : Int)) = .ok id := by
  cases id with
  | none => rfl
  | some id =>
      have range : ((id.val : Int)).toNat < 65536 := by
        rw [Int.toNat_natCast]
        exact id.isLt
      simp only [Option.map_some, setProductID]
      rw [if_neg (by omega), dif_pos range]
      simp

theorem setMinRevocationLevel_val (level : Option (Fin (2 ^ 31))) :
    setMinRevocationLevel (level.map fun level => (level.val : Int)) = .ok level := by
  cases level with
  | none => rfl
  | some level =>
      have range : 0 ≤ (level.val : Int) ∧ ((level.val : Int)).toNat < 2 ^ 31 := by
        rw [Int.toNat_natCast]
        exact ⟨by omega, level.isLt⟩
      simp only [Option.map_some, setMinRevocationLevel]
      rw [dif_pos range]
      simp

theorem optional_toInt {digit : UInt16 → Option Nat} (reads : ReadsAscii digit) {bound : Nat}
    (small : bound ≤ 2 ^ 31) (value : Option (Fin bound)) :
    optional (toInt digit) (value.map fun value => intText value.val) =
      .ok (value.map fun value => (value.val : Int)) := by
  cases value with
  | none => rfl
  | some value =>
      have fits : IsInt32 (value.val : Int) := by
        have range := value.isLt
        exact ⟨by omega, by omega⟩
      simp only [Option.map_some, optional, toInt, parseInt_intText reads fits]
      rfl

theorem optional_parsePeriod (age : Option AttestationAge) :
    optional parsePeriod (age.map fun age => age.val.text) = .ok age := by
  cases age with
  | none => rfl
  | some age =>
      simp only [Option.map_some, optional, parsePeriod, Period.parse_text age.property]
      rw [dif_pos age.property]
      rfl

theorem optional_valueOf (summary : Summary) :
    optional Summary.valueOf (some summary.name) = .ok (some summary) := by
  cases summary <;> rfl

/-- The constraint with its sets as parsing builds them. -/
def reparsed (constraint : EnclaveConstraint) : EnclaveConstraint :=
  { constraint with
    acceptableCodeHashes := addAll constraint.acceptableCodeHashes
    acceptableSigners := addAll constraint.acceptableSigners }

theorem mem_addAll (hashes : List SecureHash) (hash : SecureHash) :
    hash ∈ addAll hashes ↔ hash ∈ hashes := by
  have general : ∀ set : List SecureHash,
      hash ∈ hashes.foldl (fun set hash => set.insert hash) set ↔ hash ∈ set ∨ hash ∈ hashes := by
    induction hashes with
    | nil => simp
    | cons first hashes ih =>
        intro set
        rw [List.foldl_cons, ih, List.mem_insert_iff, List.mem_cons]
        tauto
  rw [addAll, general]
  simp

theorem reparsed_equal (constraint : EnclaveConstraint) : constraint.Equal constraint.reparsed :=
  ⟨fun hash => (mem_addAll _ hash).symm, fun hash => (mem_addAll _ hash).symm, rfl, rfl, rfl, rfl⟩

theorem isEmpty_addAll (hashes : List SecureHash) : (addAll hashes).isEmpty = hashes.isEmpty := by
  rw [Bool.eq_iff_iff, List.isEmpty_iff, List.isEmpty_iff, List.eq_nil_iff_forall_not_mem,
    List.eq_nil_iff_forall_not_mem]
  simp only [mem_addAll]

theorem checkCriteriaValid_reparsed (constraint : EnclaveConstraint) :
    constraint.reparsed.checkCriteriaValid = constraint.checkCriteriaValid := by
  simp only [checkCriteriaValid, reparsed, isEmpty_addAll]

/-- Parsing the text of a constraint gives it back if its criteria are valid, and throws
what the check of the criteria throws if they are not. -/
theorem parse_text {digit : UInt16 → Option Nat} (reads : ReadsAscii digit)
    (constraint : EnclaveConstraint) :
    parse digit constraint.text true =
      (constraint.checkCriteriaValid).map fun _ => constraint.reparsed := by
  obtain ⟨codes, signers, product, level, security, age⟩ := constraint.values_entries
  have known : (constraint.entries.map Prod.fst).eraseDups.filter
      (fun key => !keys.contains key) = [] := by
    rw [List.filter_eq_nil_iff]
    intro key member
    rw [List.mem_eraseDups] at member
    obtain ⟨entry, inEntries, rfl⟩ := List.mem_map.mp member
    simpa using (constraint.entries_plain entry inEntries).1
  have securityFound : getSingleOrNone constraint.entries "SEC" =
      .ok (some constraint.minSecurityLevel.name) := getSingleOrNone_toList security
  have parsed : parse digit constraint.text true =
      ((constraint.reparsed).checkCriteriaValid >>= fun _ => .ok constraint.reparsed) := by
    rw [parse, keyValues_text]
    simp only [bind, Except.bind, known, List.isEmpty_nil, Bool.not_true, Bool.false_eq_true,
      if_false, codes, signers, mapM_parseHash, getSingleOrNone_toList product,
      getSingleOrNone_toList level, securityFound, getSingleOrNone_toList age,
      optional_toInt reads (by decide : 65536 ≤ 2 ^ 31), optional_toInt reads (le_refl (2 ^ 31)),
      setProductID_val, setMinRevocationLevel_val, optional_parsePeriod, optional_valueOf, if_true]
    rfl
  rw [parsed, checkCriteriaValid_reparsed]
  cases constraint.checkCriteriaValid <;> rfl

end EnclaveConstraint

end Conclave.Common
