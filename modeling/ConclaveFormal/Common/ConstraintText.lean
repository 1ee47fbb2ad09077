import ConclaveFormal.Common.EnclaveConstraint
import ConclaveFormal.Lib.Fallible
import Mathlib.Data.List.Perm.Basic

/-!
# Constraints and their texts

What the tokens of a text have to be for it to be parsed, without the check of the criteria, as a
given constraint.  Neither the order of the tokens nor the spaces between them count.
-/

set_option autoImplicit false

namespace Conclave.Common.EnclaveConstraint

open Conclave.Lib Conclave.Lib.Json

/-! ## Tokens -/

/-- What is between the spaces of a text. -/
def tokensOf (descriptor : JString) : List JString :=
  (descriptor.splitOn space).filter fun token => !token.isEmpty

theorem tokensOf_append_space (front back : JString) :
    tokensOf (front ++ space :: back) = tokensOf front ++ tokensOf back := by
  rw [tokensOf, List.splitOn_append_cons_self, List.filter_append]
  rfl

theorem tokensOf_spaces (count : Nat) (back : JString) :
    tokensOf (List.replicate count space ++ back) = tokensOf back := by
  induction count with
  | zero => rfl
  | succ count ih =>
      rw [List.replicate_succ, List.cons_append]
      exact (tokensOf_append_space [] _).trans ih

theorem tokensOf_token {token : JString} (whole : space ∉ token) (nonempty : token ≠ []) :
    tokensOf token = [token] := by
  rw [tokensOf, List.splitOn_eq_singleton whole]
  cases token with
  | nil => exact absurd rfl nonempty
  | cons unit token => rfl

/-- The tokens one after the other, each with at least one space before it. -/
def spread (first : JString) (rest : List (Nat × JString)) : JString :=
  first ++ (rest.map fun piece => List.replicate (piece.1 + 1) space ++ piece.2).flatten

theorem spread_cons (first : JString) (piece : Nat × JString) (rest : List (Nat × JString)) :
    spread first (piece :: rest) =
      first ++ space :: (List.replicate piece.1 space ++ spread piece.2 rest) := by
  simp [spread, List.replicate_succ]

theorem tokensOf_spread {first : JString} {rest : List (Nat × JString)}
    (pieces : ∀ token ∈ first :: rest.map Prod.snd, space ∉ token ∧ token ≠ []) :
    tokensOf (spread first rest) = first :: rest.map Prod.snd := by
  have one := pieces first List.mem_cons_self
  induction rest generalizing first with
  | nil =>
      simp only [spread, List.map_nil, List.flatten_nil, List.append_nil]
      exact tokensOf_token one.1 one.2
  | cons piece rest ih =>
      have later : ∀ token ∈ piece.2 :: rest.map Prod.snd, space ∉ token ∧ token ≠ [] :=
        fun token member => pieces token (List.mem_cons_of_mem first member)
      rw [spread_cons, tokensOf_append_space, tokensOf_token one.1 one.2, tokensOf_spaces,
        ih later (later piece.2 List.mem_cons_self)]
      rfl

/-! ## Texts that are parsed as a given constraint -/

section Parsed

variable {digit : UInt16 → Option Nat} {keyValues : List (JString × JString)}
  {constraint : EnclaveConstraint}

/-- The text of a key that has at most one value is read as the given value. -/
def ReadsSingle {α : Type} (keyValues : List (JString × JString)) (key : String)
    (read : Option JString → Except ConstraintError α) (value : α) : Prop :=
  ∃ text, getSingleOrNone keyValues key = .ok text ∧ read text = .ok value

def ReadsHashes (keyValues : List (JString × JString)) (key : String) (set : List SecureHash) :
    Prop :=
  ∃ hashes, (values keyValues key).mapM parseHash = .ok hashes ∧ set = addAll hashes

def readProductID (digit : UInt16 → Option Nat) (text : Option JString) :
    Except ConstraintError (Option (Fin 65536)) :=
  optional (toInt digit) text >>= setProductID

def readMinRevocationLevel (digit : UInt16 → Option Nat) (text : Option JString) :
    Except ConstraintError (Option (Fin (2 ^ 31))) :=
  optional (toInt digit) text >>= setMinRevocationLevel

def readMinSecurityLevel (text : Option JString) : Except ConstraintError Summary :=
  (optional Summary.valueOf text).map fun security => security.getD .STALE

/-- The keys and values are those of a text that is parsed as the constraint. -/
structure Parsed (digit : UInt16 → Option Nat) (keyValues : List (JString × JString))
    (constraint : EnclaveConstraint) : Prop where
  known : ∀ entry ∈ keyValues, entry.1 ∈ keys
  acceptableCodeHashes : ReadsHashes keyValues "C" constraint.acceptableCodeHashes
  acceptableSigners : ReadsHashes keyValues "S" constraint.acceptableSigners
  productID : ReadsSingle keyValues "PROD" (readProductID digit) constraint.productID
  minRevocationLevel :
    ReadsSingle keyValues "REVOKE" (readMinRevocationLevel digit) constraint.minRevocationLevel
  minSecurityLevel :
    ReadsSingle keyValues "SEC" readMinSecurityLevel constraint.minSecurityLevel
  maxAttestationAge :
    ReadsSingle keyValues "EXPIRE" (optional parsePeriod) constraint.maxAttestationAge

theorem unknown_isEmpty (keyValues : List (JString × JString)) :
    ((keyValues.map Prod.fst).eraseDups.filter fun key => !keys.contains key).isEmpty ↔
      ∀ entry ∈ keyValues, entry.1 ∈ keys := by
  rw [List.isEmpty_iff, List.filter_eq_nil_iff]
  constructor
  · intro known entry member
    have listed : entry.1 ∈ (keyValues.map Prod.fst).eraseDups :=
      List.mem_eraseDups.mpr (List.mem_map_of_mem member)
    simpa using known entry.1 listed
  · intro known key member
    obtain ⟨entry, inEntries, rfl⟩ := List.mem_map.mp (List.mem_eraseDups.mp member)
    simpa using known entry inEntries

theorem parse_of_parsed {descriptor : JString}
    (split : (tokensOf descriptor).mapM keyValue = .ok keyValues)
    (parsed : Parsed digit keyValues constraint) (checkValidity : Bool) :
    parse digit descriptor checkValidity =
      if checkValidity then constraint.checkCriteriaValid.map fun _ => constraint
      else .ok constraint := by
  obtain ⟨codeHashes, codesRead, codes⟩ := parsed.acceptableCodeHashes
  obtain ⟨signerHashes, signersRead, signers⟩ := parsed.acceptableSigners
  obtain ⟨productText, productFound, productRead⟩ := parsed.productID
  obtain ⟨levelText, levelFound, levelRead⟩ := parsed.minRevocationLevel
  obtain ⟨securityText, securityFound, securityRead⟩ := parsed.minSecurityLevel
  obtain ⟨ageText, ageFound, ageRead⟩ := parsed.maxAttestationAge
  obtain ⟨productValue, productInt, productSet⟩ := bind_eq_ok productRead
  obtain ⟨levelValue, levelInt, levelSet⟩ := bind_eq_ok levelRead
  obtain ⟨security, securityValue, securityDefault⟩ := map_eq_ok securityRead
  have known := (unknown_isEmpty keyValues).mpr parsed.known
  rw [tokensOf] at split
  simp only [parse, split, bind, Except.bind, known, Bool.not_true, Bool.false_eq_true, if_false,
    codesRead, signersRead, productFound, productInt, productSet, levelFound, levelInt, levelSet,
    securityFound, securityValue, securityDefault, ageFound, ageRead, ← codes, ← signers]
  cases checkValidity with
  | false => rfl
  | true => cases constraint.checkCriteriaValid <;> rfl

theorem parsed_of_parse {descriptor : JString} {checkValidity : Bool}
    (returned : parse digit descriptor checkValidity = .ok constraint) :
    ∃ keyValues, (tokensOf descriptor).mapM keyValue = .ok keyValues ∧
      Parsed digit keyValues constraint := by
  rw [parse] at returned
  obtain ⟨keyValues, split, returned⟩ := bind_eq_ok returned
  dsimp only at returned
  by_cases known : ((keyValues.map Prod.fst).eraseDups.filter
      fun key => !keys.contains key).isEmpty
  · rw [known, if_neg (by decide)] at returned
    obtain ⟨codeHashes, codesRead, returned⟩ := bind_eq_ok returned
    obtain ⟨signers, signersRead, returned⟩ := bind_eq_ok returned
    obtain ⟨productText, productFound, returned⟩ := bind_eq_ok returned
    obtain ⟨productValue, productInt, returned⟩ := bind_eq_ok returned
    obtain ⟨productID, productSet, returned⟩ := bind_eq_ok returned
    obtain ⟨levelText, levelFound, returned⟩ := bind_eq_ok returned
    obtain ⟨levelValue, levelInt, returned⟩ := bind_eq_ok returned
    obtain ⟨level, levelSet, returned⟩ := bind_eq_ok returned
    obtain ⟨securityText, securityFound, returned⟩ := bind_eq_ok returned
    obtain ⟨security, securityRead, returned⟩ := bind_eq_ok returned
    obtain ⟨ageText, ageFound, returned⟩ := bind_eq_ok returned
    obtain ⟨age, ageRead, returned⟩ := bind_eq_ok returned
    have built : constraint = {
        acceptableCodeHashes := addAll codeHashes
        acceptableSigners := addAll signers
        productID := productID
        minRevocationLevel := level
        minSecurityLevel := security.getD .STALE
        maxAttestationAge := age } := by
      split at returned
      · obtain ⟨_, -, returned⟩ := bind_eq_ok returned
        cases returned
        rfl
      · cases returned
        rfl
    subst built
    refine ⟨keyValues, split, (unknown_isEmpty keyValues).mp known, ⟨_, codesRead, rfl⟩,
      ⟨_, signersRead, rfl⟩, ⟨_, productFound, ?_⟩, ⟨_, levelFound, ?_⟩, ⟨_, securityFound, ?_⟩,
      ⟨_, ageFound, ageRead⟩⟩
    · rw [readProductID, bind_of_ok productInt]
      exact productSet
    · rw [readMinRevocationLevel, bind_of_ok levelInt]
      exact levelSet
    · rw [readMinSecurityLevel, securityRead]
      rfl
  · rw [Bool.eq_false_of_not_eq_true known, if_pos (by decide)] at returned
    cases returned

/-! ## The order of the tokens -/

variable {permuted : List (JString × JString)}

theorem values_perm (perm : keyValues.Perm permuted) (key : String) :
    (values keyValues key).Perm (values permuted key) :=
  perm.filterMap _

theorem getSingleOrNone_perm (perm : keyValues.Perm permuted) (key : String) :
    getSingleOrNone keyValues key = getSingleOrNone permuted key := by
  have same := values_perm perm key
  rw [getSingleOrNone, getSingleOrNone]
  generalize values keyValues key = first at same
  generalize values permuted key = second at same
  cases first with
  | nil => rw [same.nil_eq]
  | cons head tail =>
      cases tail with
      | nil => rw [List.singleton_perm.mp same]
      | cons next tail =>
          have length := same.length_eq
          cases second with
          | nil => cases length
          | cons other rest =>
              cases rest with
              | nil => cases length
              | cons _ _ => rfl

theorem ReadsSingle.perm {α : Type} {key : String}
    {read : Option JString → Except ConstraintError α}
    {value : α} (reads : ReadsSingle keyValues key read value) (perm : keyValues.Perm permuted) :
    ReadsSingle permuted key read value := by
  rw [ReadsSingle, ← getSingleOrNone_perm perm key]
  exact reads

theorem ReadsHashes.perm {key : String} {set : List SecureHash}
    (reads : ReadsHashes keyValues key set) (perm : keyValues.Perm permuted) :
    ∃ permutedSet, ReadsHashes permuted key permutedSet ∧ sameSet set permutedSet := by
  obtain ⟨hashes, read, rfl⟩ := reads
  obtain ⟨permutedHashes, permutedRead, same⟩ :=
    List.perm_comp_forall₂ (values_perm perm key).symm (mapM_eq_ok.mp read)
  refine ⟨addAll permutedHashes, ⟨permutedHashes, mapM_eq_ok.mpr permutedRead, rfl⟩, ?_⟩
  intro hash
  rw [mem_addAll, mem_addAll]
  exact same.mem_iff.symm

theorem Parsed.perm (parsed : Parsed digit keyValues constraint)
    (perm : keyValues.Perm permuted) :
    ∃ other, Parsed digit permuted other ∧ constraint.Equal other := by
  obtain ⟨codeHashes, codesRead, sameCodes⟩ := parsed.acceptableCodeHashes.perm perm
  obtain ⟨signers, signersRead, sameSigners⟩ := parsed.acceptableSigners.perm perm
  refine ⟨{ constraint with acceptableCodeHashes := codeHashes, acceptableSigners := signers },
    ?_, ⟨sameCodes, sameSigners, rfl, rfl, rfl, rfl⟩⟩
  exact {
    known := fun entry member => parsed.known entry (perm.mem_iff.mpr member)
    acceptableCodeHashes := codesRead
    acceptableSigners := signersRead
    productID := parsed.productID.perm perm
    minRevocationLevel := parsed.minRevocationLevel.perm perm
    minSecurityLevel := parsed.minSecurityLevel.perm perm
    maxAttestationAge := parsed.maxAttestationAge.perm perm }

/-! ## One more token -/

theorem tokens_append_token {descriptor key value : JString}
    (split : (tokensOf descriptor).mapM keyValue = .ok keyValues) (plainKey : Plain key)
    (plainValue : Plain value) :
    (tokensOf (descriptor ++ space :: token key value)).mapM keyValue =
      .ok (keyValues ++ [(key, value)]) := by
  have whole : space ∉ token key value := by
    intro inToken
    rcases List.mem_append.mp inToken with inKey | inValue
    · exact (plainKey space inKey).1 rfl
    · rcases List.mem_cons.mp inValue with isColon | inValue
      · exact absurd isColon (by decide)
      · exact (plainValue space inValue).1 rfl
  rw [tokensOf_append_space, tokensOf_token whole (by simp [token])]
  apply mapM_eq_ok.mpr
  apply List.rel_append (mapM_eq_ok.mp split)
  exact .cons (keyValue_token plainKey plainValue) .nil

theorem values_append_single (keyValues : List (JString × JString)) (key other : String)
    (value : JString) :
    values (keyValues ++ [(jstring other, value)]) key =
      values keyValues key ++ if jstring other = jstring key then [value] else [] := by
  rw [values_append, values_single]

theorem ReadsSingle.append_other {α : Type} {key other : String}
    {read : Option JString → Except ConstraintError α} {result : α}
    (reads : ReadsSingle keyValues key read result) (different : jstring other ≠ jstring key)
    (value : JString) : ReadsSingle (keyValues ++ [(jstring other, value)]) key read result := by
  rw [ReadsSingle, getSingleOrNone, values_append_single, if_neg different, List.append_nil]
  exact reads

theorem ReadsHashes.append_other {key other : String} {set : List SecureHash}
    (reads : ReadsHashes keyValues key set) (different : jstring other ≠ jstring key)
    (value : JString) : ReadsHashes (keyValues ++ [(jstring other, value)]) key set := by
  rw [ReadsHashes, values_append_single, if_neg different, List.append_nil]
  exact reads

theorem ReadsHashes.append_hash {key : String} {set : List SecureHash}
    (reads : ReadsHashes keyValues key set) (hash : SecureHash) :
    ReadsHashes (keyValues ++ [(jstring key, toHexString hash.bytes)]) key (set.insert hash) := by
  obtain ⟨hashes, read, rfl⟩ := reads
  refine ⟨hashes ++ [hash], ?_, ?_⟩
  · rw [values_append_single, if_pos rfl]
    apply mapM_eq_ok.mpr
    apply List.rel_append (mapM_eq_ok.mp read)
    exact .cons (parseHash_toHexString hash) .nil
  · rw [addAll, addAll, List.foldl_append]
    rfl

theorem known_append {key : JString} (known : ∀ entry ∈ keyValues, entry.1 ∈ keys)
    (added : key ∈ keys) (value : JString) :
    ∀ entry ∈ keyValues ++ [(key, value)], entry.1 ∈ keys := by
  intro entry member
  rcases List.mem_append.mp member with old | new
  · exact known entry old
  · rw [List.mem_singleton.mp new]
    exact added

theorem Parsed.append_code (parsed : Parsed digit keyValues constraint) (hash : SecureHash) :
    Parsed digit (keyValues ++ [(jstring "C", toHexString hash.bytes)])
      { constraint with
        acceptableCodeHashes := constraint.acceptableCodeHashes.insert hash } where
  known := known_append parsed.known (by decide) _
  acceptableCodeHashes := parsed.acceptableCodeHashes.append_hash hash
  acceptableSigners := parsed.acceptableSigners.append_other (by decide) _
  productID := parsed.productID.append_other (by decide) _
  minRevocationLevel := parsed.minRevocationLevel.append_other (by decide) _
  minSecurityLevel := parsed.minSecurityLevel.append_other (by decide) _
  maxAttestationAge := parsed.maxAttestationAge.append_other (by decide) _

theorem Parsed.append_signer (parsed : Parsed digit keyValues constraint) (hash : SecureHash) :
    Parsed digit (keyValues ++ [(jstring "S", toHexString hash.bytes)])
      { constraint with acceptableSigners := constraint.acceptableSigners.insert hash } where
  known := known_append parsed.known (by decide) _
  acceptableCodeHashes := parsed.acceptableCodeHashes.append_other (by decide) _
  acceptableSigners := parsed.acceptableSigners.append_hash hash
  productID := parsed.productID.append_other (by decide) _
  minRevocationLevel := parsed.minRevocationLevel.append_other (by decide) _
  minSecurityLevel := parsed.minSecurityLevel.append_other (by decide) _
  maxAttestationAge := parsed.maxAttestationAge.append_other (by decide) _

/-- Where no product ID is read there is no text for one. -/
theorem values_of_no_productID (reads : ReadsSingle keyValues "PROD" (readProductID digit) none) :
    values keyValues "PROD" = [] := by
  obtain ⟨text, found, read⟩ := reads
  cases text with
  | none =>
      rw [getSingleOrNone] at found
      split at found
      · assumption
      · cases found
      · cases found
  | some text =>
      obtain ⟨value, parsedValue, set⟩ := bind_eq_ok read
      obtain ⟨number, -, rfl⟩ := map_eq_ok parsedValue
      rw [setProductID] at set
      split at set
      · cases set
      · split at set
        · cases set
        · cases set

theorem readProductID_intText (reads : ReadsAscii digit) (id : Fin 65536) :
    readProductID digit (some (intText id.val)) = .ok (some id) := by
  have read := optional_toInt reads (by decide : 65536 ≤ 2 ^ 31) (some id)
  rw [readProductID]
  exact (bind_of_ok read setProductID).trans (setProductID_val (some id))

theorem Parsed.append_productID (reads : ReadsAscii digit)
    (parsed : Parsed digit keyValues constraint) (missing : constraint.productID = none)
    (id : Fin 65536) :
    Parsed digit (keyValues ++ [(jstring "PROD", intText id.val)])
      { constraint with productID := some id } where
  known := known_append parsed.known (by decide) _
  acceptableCodeHashes := parsed.acceptableCodeHashes.append_other (by decide) _
  acceptableSigners := parsed.acceptableSigners.append_other (by decide) _
  productID := by
    have none_read := parsed.productID
    rw [missing] at none_read
    refine ⟨some (intText id.val), ?_, readProductID_intText reads id⟩
    rw [getSingleOrNone, values_append_single, values_of_no_productID none_read, if_pos rfl]
    rfl
  minRevocationLevel := parsed.minRevocationLevel.append_other (by decide) _
  minSecurityLevel := parsed.minSecurityLevel.append_other (by decide) _
  maxAttestationAge := parsed.maxAttestationAge.append_other (by decide) _

/-! ## The text of a constraint -/

theorem parsed_entries (reads : ReadsAscii digit) (constraint : EnclaveConstraint) :
    Parsed digit constraint.entries constraint.reparsed := by
  obtain ⟨codes, signers, product, level, security, age⟩ := constraint.values_entries
  refine ⟨fun entry member => (constraint.entries_plain entry member).1,
    ⟨constraint.acceptableCodeHashes, ?_, rfl⟩, ⟨constraint.acceptableSigners, ?_, rfl⟩,
    ⟨_, getSingleOrNone_toList product, ?_⟩, ⟨_, getSingleOrNone_toList level, ?_⟩,
    ⟨some constraint.minSecurityLevel.name, getSingleOrNone_toList security, ?_⟩,
    ⟨_, getSingleOrNone_toList age, optional_parsePeriod _⟩⟩
  · rw [codes]
    exact mapM_parseHash _
  · rw [signers]
    exact mapM_parseHash _
  · rw [readProductID, bind_of_ok (optional_toInt reads (by decide) _)]
    exact setProductID_val _
  · rw [readMinRevocationLevel, bind_of_ok (optional_toInt reads le_rfl _)]
    exact setMinRevocationLevel_val _
  · rw [readMinSecurityLevel, optional_valueOf]
    rfl

theorem token_whole (constraint : EnclaveConstraint) :
    ∀ token ∈ constraint.tokens, space ∉ token ∧ token ≠ [] := by
  intro piece member
  rw [tokens_eq] at member
  obtain ⟨entry, inEntries, rfl⟩ := List.mem_map.mp member
  obtain ⟨-, plainKey, plainValue⟩ := constraint.entries_plain entry inEntries
  refine ⟨?_, by simp [token]⟩
  intro inPiece
  rcases List.mem_append.mp inPiece with inKey | inValue
  · exact (plainKey space inKey).1 rfl
  · rcases List.mem_cons.mp inValue with isColon | inValue
    · exact absurd isColon (by decide)
    · exact (plainValue space inValue).1 rfl

/-- The keys and values of the tokens in any order. -/
theorem mapM_keyValue_perm {constraint : EnclaveConstraint} {tokens : List JString}
    (perm : tokens.Perm constraint.tokens) :
    ∃ keyValues, tokens.mapM keyValue = .ok keyValues ∧ constraint.entries.Perm keyValues := by
  rw [tokens_eq] at perm
  obtain ⟨keyValues, rfl, same⟩ := (congrFun₂ (List.eq_map_comp_perm _) tokens _).mpr perm
  refine ⟨keyValues, mapM_keyValue ?_, same.symm⟩
  intro entry member
  exact (constraint.entries_plain entry (same.mem_iff.mp member)).2

theorem sameSet.isEmpty_eq {α : Type} {first second : List α} (same : sameSet first second) :
    first.isEmpty = second.isEmpty := by
  rw [Bool.eq_iff_iff, List.isEmpty_iff, List.isEmpty_iff, List.eq_nil_iff_forall_not_mem,
    List.eq_nil_iff_forall_not_mem]
  exact forall_congr' fun element => not_congr (same element)

theorem Equal.checkCriteriaValid_eq {first second : EnclaveConstraint}
    (equal : first.Equal second) : first.checkCriteriaValid = second.checkCriteriaValid := by
  simp only [checkCriteriaValid, sameSet.isEmpty_eq equal.acceptableCodeHashes,
    sameSet.isEmpty_eq equal.acceptableSigners, equal.productID]

/-- Equal constraints or the same error. -/
def SameResult : Except ConstraintError EnclaveConstraint →
    Except ConstraintError EnclaveConstraint → Prop
  | .ok first, .ok second => first.Equal second
  | .error first, .error second => first = second
  | _, _ => False

theorem sameResult_of_equal {first second : EnclaveConstraint} (equal : first.Equal second)
    (checkValidity : Bool) :
    SameResult
      (if checkValidity then first.checkCriteriaValid.map fun _ => first else .ok first)
      (if checkValidity then second.checkCriteriaValid.map fun _ => second else .ok second) := by
  cases checkValidity with
  | false => exact equal
  | true =>
      rw [if_pos rfl, if_pos rfl, equal.checkCriteriaValid_eq]
      cases second.checkCriteriaValid with
      | error error => exact rfl
      | ok valid => exact equal

theorem parse_text_eq (reads : ReadsAscii digit) (constraint : EnclaveConstraint)
    (checkValidity : Bool) :
    parse digit constraint.text checkValidity =
      if checkValidity then constraint.reparsed.checkCriteriaValid.map fun _ => constraint.reparsed
      else .ok constraint.reparsed :=
  parse_of_parsed constraint.keyValues_text (parsed_entries reads constraint) checkValidity

theorem parse_spread (reads : ReadsAscii digit) {constraint : EnclaveConstraint}
    {first : JString} {rest : List (Nat × JString)}
    (perm : (first :: rest.map Prod.snd).Perm constraint.tokens) (checkValidity : Bool) :
    SameResult (parse digit constraint.text checkValidity)
      (parse digit (spread first rest) checkValidity) := by
  have pieces : ∀ token ∈ first :: rest.map Prod.snd, space ∉ token ∧ token ≠ [] :=
    fun token member => constraint.token_whole token (perm.mem_iff.mp member)
  obtain ⟨keyValues, split, reordered⟩ := mapM_keyValue_perm perm
  obtain ⟨other, parsed, equal⟩ := (parsed_entries reads constraint).perm reordered
  rw [← tokensOf_spread pieces] at split
  rw [parse_text_eq reads, parse_of_parsed split parsed]
  exact sameResult_of_equal equal checkValidity

/-- A constraint is read back from its text, with the check exactly if its criteria are valid, and
neither the order of the tokens nor more spaces between them make a difference. -/
theorem constraint_text_round_trip (reads : ReadsAscii digit) (constraint : EnclaveConstraint) :
    (∃ parsed, parse digit constraint.text false = .ok parsed ∧ constraint.Equal parsed) ∧
      ((∃ parsed, parse digit constraint.text true = .ok parsed) ↔
        constraint.checkCriteriaValid = .ok ()) ∧
      ∀ first rest, (first :: rest.map Prod.snd).Perm constraint.tokens → ∀ checkValidity,
        SameResult (parse digit constraint.text checkValidity)
          (parse digit (spread first rest) checkValidity) := by
  refine ⟨⟨constraint.reparsed, parse_text_eq reads constraint false, constraint.reparsed_equal⟩,
    ?_, fun first rest perm checkValidity => parse_spread reads perm checkValidity⟩
  rw [parse_text reads constraint]
  cases constraint.checkCriteriaValid with
  | error error => simp [Except.map]
  | ok valid => simp [Except.map]

theorem size_oneHash (byte : UInt8) :
    (List.replicate 32 byte).length = 32 ∨ (List.replicate 32 byte).length = 64 :=
  Or.inl List.length_replicate

def oneHash (byte : UInt8) : SecureHash := ⟨List.replicate 32 byte, size_oneHash byte⟩

def twoCodeHashes : EnclaveConstraint where
  acceptableCodeHashes := [oneHash 1, oneHash 2]
  acceptableSigners := []
  productID := none
  minRevocationLevel := none
  minSecurityLevel := .SECURE
  maxAttestationAge := none

theorem twoCodeHashes_text_round_trip :
    (∃ parsed, parse asciiDigit twoCodeHashes.text false = .ok parsed ∧
        twoCodeHashes.Equal parsed) ∧
      ((∃ parsed, parse asciiDigit twoCodeHashes.text true = .ok parsed) ↔
        twoCodeHashes.checkCriteriaValid = .ok ()) ∧
      ∀ first rest, (first :: rest.map Prod.snd).Perm twoCodeHashes.tokens → ∀ checkValidity,
        SameResult (parse asciiDigit twoCodeHashes.text checkValidity)
          (parse asciiDigit (spread first rest) checkValidity) :=
  constraint_text_round_trip asciiDigit_readsAscii twoCodeHashes

end Parsed

end Conclave.Common.EnclaveConstraint
