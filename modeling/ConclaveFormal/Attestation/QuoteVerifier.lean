import ConclaveFormal.Attestation.JsonTypes
import Mathlib.Data.List.Infix

/-!
# What the signatures of the collateral cover

The quote verifier looks at a signed document twice: its bytes are cut at a fixed
offset and at the last signature marker, and the signature is checked over that
range; the record that is used comes out of the JSON tree of the whole document.
In a document whose record is the first member, with no later member of its name,
and whose last marker begins at the record's closing brace, both are the same.
-/

set_option autoImplicit false

namespace Conclave.Attestation

open Conclave.Lib Conclave.Lib.Json

inductive ErrorStatus where
  | TCB_INFO_INVALID_SIGNATURE
  | SGX_ENCLAVE_IDENTITY_INVALID_SIGNATURE
  deriving DecidableEq, Repr

inductive VerifyError where
  /-- `VerificationException`, which becomes the status of the quote. -/
  | status (errorStatus : ErrorStatus)
  | illegalArgument (message : JString)
  | jsonProcessing
  | bufferUnderflow
  deriving DecidableEq

/-! ## Byte buffers -/

/-- Only called with an index from which all of the bytes searched for fit. -/
def containsBytesFromIndex (buffer : Bytes) (startIndex : Nat) (search : Bytes) : Bool :=
  (List.range search.length).all fun index => buffer[startIndex + index]? == search[index]?

/-- Goes down from the index above the one that is tried. -/
def lastIndexFrom (buffer search : Bytes) : Nat → Except VerifyError Nat
  | 0 => .error (.illegalArgument [])
  | index + 1 =>
      if containsBytesFromIndex buffer index search then .ok index
      else lastIndexFrom buffer search index

def lastIndexOf (buffer search : Bytes) : Except VerifyError Nat :=
  lastIndexFrom buffer search (buffer.length + 1 - search.length)

/-- A limit before the position moves the position down to it. -/
def setView (buffer : Bytes) (start stop : Nat) : Except VerifyError Bytes :=
  if start ≤ buffer.length ∧ stop ≤ buffer.length then .ok ((buffer.take stop).drop start)
  else .error (.illegalArgument [])

theorem containsBytesFromIndex_drop (buffer search : Bytes) (start index : Nat) :
    containsBytesFromIndex (buffer.drop start) index search =
      containsBytesFromIndex buffer (start + index) search := by
  simp only [containsBytesFromIndex, List.getElem?_drop, Nat.add_assoc]

theorem lastIndexFrom_drop {buffer search : Bytes} {start count index : Nat}
    (found : lastIndexFrom (buffer.drop start) search count = .ok index) :
    lastIndexFrom buffer search (start + count) = .ok (start + index) := by
  induction count with
  | zero => cases found
  | succ count ih =>
      rw [lastIndexFrom, containsBytesFromIndex_drop] at found
      rw [← Nat.add_assoc, lastIndexFrom]
      split at found
      · rename_i contains
        cases found
        rw [if_pos contains]
      · rename_i differs
        rw [if_neg differs]
        exact ih found

/-- The last occurrence in the end of a buffer is the last one of all. -/
theorem lastIndexOf_drop {buffer search : Bytes} {start index : Nat}
    (inside : start ≤ buffer.length)
    (found : lastIndexOf (buffer.drop start) search = .ok index) :
    lastIndexOf buffer search = .ok (start + index) := by
  have fits : start + search.length ≤ buffer.length + 1 := by
    by_contra short
    have empty : (buffer.drop start).length + 1 - search.length = 0 := by
      rw [List.length_drop]
      omega
    rw [lastIndexOf, empty] at found
    cases found
  have count : buffer.length + 1 - search.length =
      start + ((buffer.drop start).length + 1 - search.length) := by
    rw [List.length_drop]
    omega
  rw [lastIndexOf, count]
  exact lastIndexFrom_drop found

theorem containsBytesFromIndex_iff {buffer search : Bytes} {index : Nat} :
    containsBytesFromIndex buffer index search = true ↔ search <+: buffer.drop index := by
  rw [containsBytesFromIndex, List.all_eq_true, List.prefix_iff_getElem?]
  constructor
  · intro same offset inside
    have equal := same offset (List.mem_range.mpr inside)
    rw [List.getElem?_drop, eq_of_beq equal, List.getElem?_eq_getElem inside]
  · intro same offset member
    have inside := List.mem_range.mp member
    have equal := same offset inside
    rw [List.getElem?_drop] at equal
    rw [equal, List.getElem?_eq_getElem inside, beq_self_eq_true]

theorem lastIndexFrom_first {buffer search : Bytes} (found : search <+: buffer)
    (later : ∀ tail ∈ buffer.tail.tails, ¬ search <+: tail) (count : Nat) :
    lastIndexFrom buffer search (count + 1) = .ok 0 := by
  induction count with
  | zero =>
      rw [lastIndexFrom, if_pos]
      exact containsBytesFromIndex_iff.mpr found
  | succ count ih =>
      rw [lastIndexFrom, if_neg, ih]
      intro contained
      have occurs := containsBytesFromIndex_iff.mp contained
      rw [← List.drop_tail] at occurs
      exact later _ ((List.mem_tails _ _).mpr (List.drop_suffix count buffer.tail)) occurs

/-- The first occurrence is the last one where no later tail begins with the search. -/
theorem lastIndexOf_first {buffer search : Bytes} (found : search <+: buffer)
    (later : ∀ tail ∈ buffer.tail.tails, ¬ search <+: tail) :
    lastIndexOf buffer search = .ok 0 := by
  have fits := found.length_le
  have count : buffer.length + 1 - search.length = buffer.length - search.length + 1 := by omega
  rw [lastIndexOf, count]
  exact lastIndexFrom_first found later _

/-! ## Signatures -/

/-- `BigInteger(1, bytes).toByteArray()`: no leading zeros, but one where the first bit
is set, and a single one for zero. -/
def bigIntegerBytes (bytes : Bytes) : Bytes :=
  match bytes.dropWhile (· == 0) with
  | [] => [0]
  | first :: rest => if first ≥ 0x80 then 0 :: first :: rest else first :: rest

def encodeChunk (chunk : Bytes) : Bytes := 0x02 :: UInt8.ofNat chunk.length :: chunk

def parseRawEcdsaToDerEncoding (buffer : Bytes) : Except VerifyError Bytes :=
  if buffer.length < 64 then .error .bufferUnderflow
  else
    let data1 := bigIntegerBytes (buffer.take 32)
    let data2 := bigIntegerBytes ((buffer.drop 32).take 32)
    .ok (0x30 :: UInt8.ofNat (4 + data1.length + data2.length) ::
      (encodeChunk data1 ++ encodeChunk data2))

def JSON_SIGNATURE_MARKER : Bytes := utf8 "\x7d,\"signature\":\"".toList

/-- The bytes over which the signature of a document is verified. -/
def signedBytesView (rawJson : Bytes) (jsonPrefix : List Char) : Except VerifyError Bytes := do
  let signedBytesLimit := (← lastIndexOf rawJson JSON_SIGNATURE_MARKER) + 1
  setView rawJson jsonPrefix.length signedBytesLimit

section Verifier

variable {Instant Certificate : Type} (runtime : Runtime Instant)
  (jsonTree : Bytes → Option Json) (verifies : Certificate → Bytes → Bytes → Bool)

def verifyJsonSignature (rawJson : Bytes) (jsonPrefix : List Char) (rawSignature : Bytes)
    (cert : Certificate) (errorStatus : ErrorStatus) : Except VerifyError Unit := do
  let signedBytes ← signedBytesView rawJson jsonPrefix
  let signature ← parseRawEcdsaToDerEncoding rawSignature
  if verifies cert signedBytes signature then .ok () else .error (.status errorStatus)

/-- The tree of a document, read into a record. -/
def readRecord {α : Type} (fromJson : Json → Except JString α) (bytes : Bytes) :
    Except VerifyError α :=
  match jsonTree bytes with
  | none => .error .jsonProcessing
  | some json => (fromJson json).mapError .illegalArgument

def signedTcbInfo (rawSignedTcbInfo : Bytes) : Except VerifyError (Signed (TcbInfo Instant)) :=
  readRecord jsonTree (SignedTcbInfo.fromJson runtime) rawSignedTcbInfo

def signedQeIdentity (rawSignedQeIdentity : Bytes) :
    Except VerifyError (Signed (EnclaveIdentity Instant)) :=
  readRecord jsonTree (SignedEnclaveIdentity.fromJson runtime) rawSignedQeIdentity

def tcbInfoPrefix : List Char := "\x7b\"tcbInfo\":".toList

def enclaveIdentityPrefix : List Char := "\x7b\"enclaveIdentity\":".toList

/-- The certificate is the first of a chain that has been validated before. -/
def verifyTcbInfo (rawSignedTcbInfo : Bytes) (cert : Certificate) : Except VerifyError Unit := do
  let signed ← signedTcbInfo runtime jsonTree rawSignedTcbInfo
  verifyJsonSignature verifies rawSignedTcbInfo tcbInfoPrefix signed.signature cert
    .TCB_INFO_INVALID_SIGNATURE

def verifyQeIdentity (rawSignedQeIdentity : Bytes) (cert : Certificate) :
    Except VerifyError Unit := do
  let signed ← signedQeIdentity runtime jsonTree rawSignedQeIdentity
  verifyJsonSignature verifies rawSignedQeIdentity enclaveIdentityPrefix signed.signature cert
    .SGX_ENCLAVE_IDENTITY_INVALID_SIGNATURE

/-- The record of an accepted document is the parse of the bytes that are signed. -/
def TcbInfoCovered (rawSignedTcbInfo : Bytes) : Prop :=
  ∀ cert signed, verifyTcbInfo runtime jsonTree verifies rawSignedTcbInfo cert = .ok () →
    signedTcbInfo runtime jsonTree rawSignedTcbInfo = .ok signed →
    ∃ view, signedBytesView rawSignedTcbInfo tcbInfoPrefix = .ok view ∧
      readRecord jsonTree (TcbInfo.fromJson runtime) view = .ok signed.content

def QeIdentityCovered (rawSignedQeIdentity : Bytes) : Prop :=
  ∀ cert signed, verifyQeIdentity runtime jsonTree verifies rawSignedQeIdentity cert = .ok () →
    signedQeIdentity runtime jsonTree rawSignedQeIdentity = .ok signed →
    ∃ view, signedBytesView rawSignedQeIdentity enclaveIdentityPrefix = .ok view ∧
      readRecord jsonTree (EnclaveIdentity.fromJson runtime) view = .ok signed.content

end Verifier

/-! ## Documents in which the two readings agree -/

/-- What follows the first member of an object. -/
inductive LaterMembers : List Char → List (JString × Json) → Prop where
  | closed {ws : List Char} (blank : Ws ws) : LaterMembers (ws ++ ['}']) []
  | more {ws text : List Char} {members : List (JString × Json)} (blank : Ws ws)
      (body : Members text members) : LaterMembers (ws ++ ',' :: text) members

/-- The record is the first member, behind the prefix and white space; no later member has its
name; the last marker begins at the record's last byte. -/
def SignedLayout (name : List Char) (raw : Bytes) : Prop :=
  ∃ ws value json text later trailing,
    raw = utf8 ('{' :: '"' :: (name ++ '"' :: ':' :: (ws ++ value ++ text))) ++ trailing ∧
    Ws ws ∧ Value value json ∧ LaterMembers text later ∧
    (∀ member ∈ later, member.1 ≠ name.flatMap utf16) ∧
    lastIndexOf raw JSON_SIGNATURE_MARKER =
      .ok (name.length + 4 + (utf8 (ws ++ value)).length - 1)

/-- Names are written without escapes. -/
def PlainName (name : List Char) : Prop :=
  ∀ c ∈ name, c ≠ '"' ∧ c ≠ '\\' ∧ 0x20 ≤ c.toNat ∧ c.utf8Size = 1

instance (name : List Char) : Decidable (PlainName name) :=
  List.decidableBAll (fun c => c ≠ '"' ∧ c ≠ '\\' ∧ 0x20 ≤ c.toNat ∧ c.utf8Size = 1) name

theorem PlainName.chars {name : List Char} (plain : PlainName name) :
    Chars name (name.flatMap utf16) := by
  induction name with
  | nil => exact .nil
  | cons c name ih =>
      obtain ⟨notQuote, notEscape, printable, _⟩ := plain c List.mem_cons_self
      rw [List.flatMap_cons]
      exact .plain notQuote notEscape printable
        (ih fun d member => plain d (List.mem_cons_of_mem c member))

theorem PlainName.utf8_length {name : List Char} (plain : PlainName name) :
    (utf8 name).length = name.length := by
  induction name with
  | nil => rfl
  | cons c name ih =>
      have size := (plain c List.mem_cons_self).2.2.2
      have rest := ih fun d member => plain d (List.mem_cons_of_mem c member)
      have split : utf8 (c :: name) = String.utf8EncodeChar c ++ utf8 name := List.flatMap_cons
      rw [split, List.length_append, String.length_utf8EncodeChar, size, rest, List.length_cons,
        Nat.add_comm]

theorem PlainName.utf8_opening_length {name : List Char} (plain : PlainName name) :
    (utf8 ('{' :: '"' :: (name ++ ['"', ':']))).length = name.length + 4 := by
  change (utf8 (['{', '"'] ++ (name ++ ['"', ':']))).length = _
  rw [utf8_append, utf8_append, List.length_append, List.length_append, plain.utf8_length]
  change 2 + (name.length + 2) = _
  omega

theorem firstMember_value {name ws value text : List Char} {json : Json}
    {later : List (JString × Json)} (plain : PlainName name) (blankBetween : Ws ws)
    (read : Value value json) (follows : LaterMembers text later) :
    Value ('{' :: '"' :: (name ++ '"' :: ':' :: (ws ++ value ++ text)))
      (.object ((name.flatMap utf16, json) :: later)) := by
  have blank : Ws [] := nofun
  apply Value.object
  rw [List.append_assoc]
  cases follows with
  | closed blankAfter => exact .last blank plain.chars blank blankBetween read blankAfter
  | more blankAfter body => exact .more blank plain.chars blank blankBetween read blankAfter body

theorem get_firstMember {name : JString} {json : Json} {later : List (JString × Json)}
    (absent : ∀ member ∈ later, member.1 ≠ name) :
    (Json.object ((name, json) :: later)).get name = some json := by
  have missed : (later.reverse.find? fun member => member.1 == name) = none := by
    rw [List.find?_eq_none]
    intro member inLater
    simpa using absent member (List.mem_reverse.mp inLater)
  rw [Json.get, List.reverse_cons, List.find?_append, missed, Option.none_or]
  simp

theorem setView_middle (front middle back : Bytes) (nonempty : 0 < middle.length) :
    setView (front ++ (middle ++ back)) front.length (front.length + middle.length - 1 + 1) =
      .ok middle := by
  have stop : front.length + middle.length - 1 + 1 = front.length + middle.length := by omega
  rw [stop, setView, if_pos]
  · rw [List.take_append, List.take_of_length_le (Nat.le_add_right _ _), Nat.add_sub_cancel_left,
      List.take_left, List.drop_left]
  · simp only [List.length_append]
    omega

/-- A marker at the record's last byte cuts out the record, with the white space before it. -/
theorem signedBytesView_record {name ws value text : List Char} {json : Json} {trailing : Bytes}
    (plain : PlainName name) (read : Value value json)
    (marker : lastIndexOf
      (utf8 ('{' :: '"' :: (name ++ '"' :: ':' :: (ws ++ value ++ text))) ++ trailing)
      JSON_SIGNATURE_MARKER = .ok (name.length + 4 + (utf8 (ws ++ value)).length - 1)) :
    signedBytesView (utf8 ('{' :: '"' :: (name ++ '"' :: ':' :: (ws ++ value ++ text))) ++ trailing)
      ('{' :: '"' :: (name ++ ['"', ':'])) = .ok (utf8 (ws ++ value)) := by
  have nonempty : 0 < (utf8 (ws ++ value)).length := by
    obtain ⟨c, tail, rfl, _⟩ := read.head
    have characters : 0 < (ws ++ c :: tail).length := by simp
    exact Nat.lt_of_lt_of_le characters (length_le_utf8 _)
  generalize ws ++ value = record at marker nonempty ⊢
  have split : utf8 ('{' :: '"' :: (name ++ '"' :: ':' :: (record ++ text))) ++ trailing =
      utf8 ('{' :: '"' :: (name ++ ['"', ':'])) ++ (utf8 record ++ (utf8 text ++ trailing)) := by
    rw [← List.append_assoc (utf8 record), ← List.append_assoc (utf8 _) _ trailing, ← utf8_append,
      ← utf8_append]
    simp
  have bytes := plain.utf8_opening_length
  have characters : ('{' :: '"' :: (name ++ ['"', ':'])).length = name.length + 4 := by simp
  rw [signedBytesView, marker, characters, ← bytes, split]
  exact setView_middle _ _ _ nonempty

theorem readRecord_ok {α : Type} {jsonTree : Bytes → Option Json} {bytes : Bytes} {json : Json}
    (tree : jsonTree bytes = some json) (fromJson : Json → Except JString α) (record : α) :
    readRecord jsonTree fromJson bytes = .ok record ↔ fromJson json = .ok record := by
  rw [readRecord, tree]
  cases result : fromJson json with
  | error message => simp [result, Except.mapError]
  | ok other => simp [result, Except.mapError]

theorem SignedLayout.covered {α : Type} {jsonTree : Bytes → Option Json}
    (reads : ReadsObjects jsonTree) {name : List Char} (plain : PlainName name)
    {fromJson : Json → Except JString α} {raw : Bytes} (layout : SignedLayout name raw)
    {signed : Signed α}
    (accepted : readRecord jsonTree (signedFromJson (name.flatMap utf16) fromJson) raw =
      .ok signed) :
    ∃ view, signedBytesView raw ('{' :: '"' :: (name ++ ['"', ':'])) = .ok view ∧
      readRecord jsonTree fromJson view = .ok signed.content := by
  obtain ⟨ws, value, json, text, later, trailing, rfl, blank, read, follows, absent, marker⟩ :=
    layout
  have nothing : Ws [] := nofun
  have tree := reads [] _ _ trailing nothing (firstMember_value plain blank read follows) rfl
  rw [List.nil_append] at tree
  rw [readRecord_ok tree] at accepted
  obtain ⟨field, found, isObject, content⟩ := signedFromJson_ok accepted
  rw [get_firstMember absent] at found
  cases found
  have record := reads ws value json [] blank read isObject
  rw [List.append_nil] at record
  refine ⟨utf8 (ws ++ value), signedBytesView_record plain read marker, ?_⟩
  exact (readRecord_ok record fromJson signed.content).mpr content

/-! ## The signed record is the one that is used -/

theorem collateralSignature_covers {Instant Certificate : Type} (runtime : Runtime Instant)
    (verifies : Certificate → Bytes → Bytes → Bool) {jsonTree : Bytes → Option Json}
    (reads : ReadsObjects jsonTree) :
    (∀ raw, SignedLayout "tcbInfo".toList raw → TcbInfoCovered runtime jsonTree verifies raw) ∧
    (∀ raw, SignedLayout "enclaveIdentity".toList raw →
      QeIdentityCovered runtime jsonTree verifies raw) := by
  refine ⟨?_, ?_⟩
  · intro raw layout cert signed _ used
    have plain : PlainName "tcbInfo".toList := by decide
    exact layout.covered reads plain used
  · intro raw layout cert signed _ used
    have plain : PlainName "enclaveIdentity".toList := by decide
    exact layout.covered reads plain used

/-! A document as it is issued, and one with a second record behind the signature. -/

def memberText (name value : List Char) : List Char := '"' :: (name ++ '"' :: ':' :: value)

def stringText (text : List Char) : List Char := '"' :: (text ++ ['"'])

def tcbInfoText (evaluationDataNumber : List Char) : List Char :=
  '{' :: (memberText "version".toList ['2'] ++
    ',' :: (memberText "issueDate".toList (stringText "2019-07-30T12:00:00Z".toList) ++
    ',' :: (memberText "nextUpdate".toList (stringText "2019-08-30T12:00:00Z".toList) ++
    ',' :: (memberText "fmspc".toList (stringText "00906ED50000".toList) ++
    ',' :: (memberText "pceId".toList (stringText "0000".toList) ++
    ',' :: (memberText "tcbType".toList ['0'] ++
    ',' :: (memberText "tcbEvaluationDataNumber".toList evaluationDataNumber ++
    ',' :: (memberText "tcbLevels".toList ['[', ']'] ++ ['}']))))))))

def tcbInfoJson (evaluationDataNumber : Json) : Json :=
  .object [(jstring "version", .int 2),
    (jstring "issueDate", .string (jstring "2019-07-30T12:00:00Z")),
    (jstring "nextUpdate", .string (jstring "2019-08-30T12:00:00Z")),
    (jstring "fmspc", .string (jstring "00906ED50000")),
    (jstring "pceId", .string (jstring "0000")),
    (jstring "tcbType", .int 0), (jstring "tcbEvaluationDataNumber", evaluationDataNumber),
    (jstring "tcbLevels", .array [])]

def enclaveIdentityText : List Char :=
  '{' :: (memberText "id".toList (stringText "QE".toList) ++
    ',' :: (memberText "version".toList ['2'] ++
    ',' :: (memberText "issueDate".toList (stringText "2019-07-30T12:00:00Z".toList) ++
    ',' :: (memberText "nextUpdate".toList (stringText "2019-08-30T12:00:00Z".toList) ++
    ',' :: (memberText "tcbEvaluationDataNumber".toList ['5'] ++
    ',' :: (memberText "miscselect".toList (stringText "00000000".toList) ++
    ',' :: (memberText "miscselectMask".toList (stringText "FFFFFFFF".toList) ++
    ',' :: (memberText "attributes".toList (stringText (List.replicate 32 '0')) ++
    ',' :: (memberText "attributesMask".toList (stringText (List.replicate 32 'F')) ++
    ',' :: (memberText "mrsigner".toList (stringText (List.replicate 64 'C')) ++
    ',' :: (memberText "isvprodid".toList ['1'] ++
    ',' :: (memberText "tcbLevels".toList ['[', ']'] ++ ['}']))))))))))))

def enclaveIdentityJson : Json :=
  .object [(jstring "id", .string (jstring "QE")), (jstring "version", .int 2),
    (jstring "issueDate", .string (jstring "2019-07-30T12:00:00Z")),
    (jstring "nextUpdate", .string (jstring "2019-08-30T12:00:00Z")),
    (jstring "tcbEvaluationDataNumber", .int 5),
    (jstring "miscselect", .string (jstring "00000000")),
    (jstring "miscselectMask", .string (jstring "FFFFFFFF")),
    (jstring "attributes", .string (List.replicate 32 0x30)),
    (jstring "attributesMask", .string (List.replicate 32 0x46)),
    (jstring "mrsigner", .string (List.replicate 64 0x43)), (jstring "isvprodid", .int 1),
    (jstring "tcbLevels", .array [])]

def signatureText : List Char := List.replicate 128 '1'

def signedText (name record more : List Char) : List Char :=
  '{' :: '"' :: (name ++ '"' :: ':' :: (record ++
    ',' :: (memberText "signature".toList (stringText signatureText) ++ more)))

def signatureMember : JString × Json :=
  (jstring "signature", .string (signatureText.flatMap utf16))

def instants : Runtime Nat where
  parseInstant text :=
    if text = jstring "2019-07-30T12:00:00Z" then some 1564488000
    else if text = jstring "2019-08-30T12:00:00Z" then some 1567166400
    else none
  doubleText _ := []

def tcbInfoRecord (tcbEvaluationDataNumber : Int) : TcbInfo Nat where
  id := none
  version := .V2
  issueDate := 1564488000
  nextUpdate := 1567166400
  fmspc := [0x00, 0x90, 0x6E, 0xD5, 0x00, 0x00]
  pceId := [0x00, 0x00]
  tcbType := 0
  tcbEvaluationDataNumber := tcbEvaluationDataNumber
  tcbLevels := []

def enclaveIdentityRecord : EnclaveIdentity Nat where
  id := jstring "QE"
  version := .V2
  issueDate := 1564488000
  nextUpdate := 1567166400
  tcbEvaluationDataNumber := 5
  miscselect := List.replicate 4 0x00
  miscselectMask := List.replicate 4 0xFF
  attributes := List.replicate 16 0x00
  attributesMask := List.replicate 16 0xFF
  mrsigner := List.replicate 32 0xCC
  isvprodid := 1
  tcbLevels := []

/-- The one signature there is was made over the record. -/
def acceptsOnly (record : List Char) (_ : Unit) (bytes _ : Bytes) : Bool := bytes == utf8 record

theorem memberText_last {name text : List Char} {json : Json} (plain : PlainName name)
    (value : Value text json) :
    Members (memberText name text ++ ['}']) [(name.flatMap utf16, json)] := by
  have blank : Ws [] := nofun
  have written := Members.last blank plain.chars blank blank value blank
  simpa [memberText] using written

theorem memberText_more {name text rest : List Char} {json : Json}
    {members : List (JString × Json)} (plain : PlainName name) (value : Value text json)
    (later : Members rest members) :
    Members (memberText name text ++ ',' :: rest) ((name.flatMap utf16, json) :: members) := by
  have blank : Ws [] := nofun
  have written := Members.more blank plain.chars blank blank value blank later
  simpa [memberText] using written

theorem stringText_value {text : List Char} (plain : PlainName text) :
    Value (stringText text) (.string (text.flatMap utf16)) :=
  .string plain.chars

theorem emptyArray_value : Value ['[', ']'] (.array []) := by
  have blank : Ws [] := nofun
  exact Value.emptyArray blank

theorem tcbInfoText_value {evaluationDataNumber : List Char} {json : Json}
    (value : Value evaluationDataNumber json) :
    Value (tcbInfoText evaluationDataNumber) (tcbInfoJson json) :=
  .object (memberText_more (by decide) (.number (List.all_eq_true.mp rfl) rfl)
    (memberText_more (by decide) (stringText_value (by decide))
    (memberText_more (by decide) (stringText_value (by decide))
    (memberText_more (by decide) (stringText_value (by decide))
    (memberText_more (by decide) (stringText_value (by decide))
    (memberText_more (by decide) (.number (List.all_eq_true.mp rfl) rfl)
    (memberText_more (by decide) value
    (memberText_last (by decide) emptyArray_value))))))))

theorem five_value : Value ['5'] (.int 5) := .number (List.all_eq_true.mp rfl) rfl

theorem six_value : Value ['6'] (.int 6) := .number (List.all_eq_true.mp rfl) rfl

theorem enclaveIdentityText_value : Value enclaveIdentityText enclaveIdentityJson :=
  .object (memberText_more (by decide) (stringText_value (by decide))
    (memberText_more (by decide) (.number (List.all_eq_true.mp rfl) rfl)
    (memberText_more (by decide) (stringText_value (by decide))
    (memberText_more (by decide) (stringText_value (by decide))
    (memberText_more (by decide) (.number (List.all_eq_true.mp rfl) rfl)
    (memberText_more (by decide) (stringText_value (by decide))
    (memberText_more (by decide) (stringText_value (by decide))
    (memberText_more (by decide) (stringText_value (by decide))
    (memberText_more (by decide) (stringText_value (by decide))
    (memberText_more (by decide) (stringText_value (by decide))
    (memberText_more (by decide) (.number (List.all_eq_true.mp rfl) rfl)
    (memberText_last (by decide) emptyArray_value))))))))))))

theorem signatureText_value : Value (stringText signatureText) signatureMember.2 := by
  apply Value.string
  have plain : PlainName signatureText := by
    intro c member
    rw [List.eq_of_mem_replicate member]
    decide
  exact plain.chars

/-! The document as it is issued. -/

theorem signatureMember_later : LaterMembers
    (',' :: (memberText "signature".toList (stringText signatureText) ++ ['}']))
    [signatureMember] := by
  have blank : Ws [] := nofun
  exact .more blank (memberText_last (by decide) signatureText_value)

/-- The place of the marker, looked for from the record's closing brace on. -/
theorem signedText_marker {name record more : List Char} {members : List (JString × Json)}
    (plain : PlainName name) (read : Value record (.object members))
    (marker : lastIndexOf (utf8 ('}' :: ',' ::
      (memberText "signature".toList (stringText signatureText) ++ more)))
      JSON_SIGNATURE_MARKER = .ok 0) :
    lastIndexOf (utf8 (signedText name record more)) JSON_SIGNATURE_MARKER =
      .ok (name.length + 4 + (utf8 record).length - 1) := by
  obtain ⟨front, rfl⟩ := List.getLast?_eq_some_iff.mp read.closed
  have brace : (utf8 (front ++ ['}'])).length = (utf8 front).length + 1 := by
    rw [utf8_append, List.length_append]
    rfl
  have split : utf8 (signedText name (front ++ ['}']) more) =
      utf8 ('{' :: '"' :: (name ++ ['"', ':'])) ++ utf8 front ++
        utf8 ('}' :: ',' ::
          (memberText "signature".toList (stringText signatureText) ++ more)) := by
    rw [← utf8_append, ← utf8_append]
    simp [signedText]
  have start : (utf8 ('{' :: '"' :: (name ++ ['"', ':'])) ++ utf8 front).length =
      name.length + 4 + (utf8 (front ++ ['}'])).length - 1 := by
    rw [List.length_append, plain.utf8_opening_length, brace]
    rfl
  have inside : name.length + 4 + (utf8 (front ++ ['}'])).length - 1 ≤
      (utf8 (signedText name (front ++ ['}']) more)).length := by
    rw [split, ← start]
    exact (List.prefix_append _ _).length_le
  have behind : (utf8 (signedText name (front ++ ['}']) more)).drop
      (name.length + 4 + (utf8 (front ++ ['}'])).length - 1) =
        utf8 ('}' :: ',' ::
          (memberText "signature".toList (stringText signatureText) ++ more)) := by
    rw [split]
    exact List.drop_left' start
  rw [← behind] at marker
  rw [lastIndexOf_drop inside marker, Nat.add_zero]

/-- A record followed by its signature alone. -/
theorem signedText_layout {name record : List Char} {json : Json} (read : Value record json)
    (different : jstring "signature" ≠ name.flatMap utf16)
    (marker : lastIndexOf (utf8 (signedText name record ['}'])) JSON_SIGNATURE_MARKER =
      .ok (name.length + 4 + (utf8 record).length - 1)) :
    SignedLayout name (utf8 (signedText name record ['}'])) := by
  refine ⟨[], record, json, _, _, [], ?_, nofun, read, signatureMember_later, ?_, marker⟩
  · rw [List.append_nil]
    rfl
  · intro member inLater
    rw [List.mem_singleton] at inLater
    rw [inLater]
    exact different

theorem signedText_range {name record more : List Char} {json : Json} (plain : PlainName name)
    (read : Value record json)
    (marker : lastIndexOf (utf8 (signedText name record more)) JSON_SIGNATURE_MARKER =
      .ok (name.length + 4 + (utf8 record).length - 1)) :
    signedBytesView (utf8 (signedText name record more)) ('{' :: '"' :: (name ++ ['"', ':'])) =
      .ok (utf8 record) := by
  rw [← List.append_nil (utf8 (signedText name record more))] at marker ⊢
  exact @signedBytesView_record name [] record _ json [] plain read marker

theorem readTree_signedText {name record more : List Char} {json : Json}
    {later : List (JString × Json)} (plain : PlainName name) (read : Value record json)
    (follows : LaterMembers (',' :: (memberText "signature".toList (stringText signatureText) ++
      more)) later) :
    readTree (utf8 (signedText name record more)) =
      some (.object ((name.flatMap utf16, json) :: later)) := by
  have blank : Ws [] := nofun
  have document := firstMember_value plain blank read follows
  have tree := readTree_readsObjects [] _ _ [] blank document rfl
  rw [List.append_nil] at tree
  exact tree

theorem verifyJsonSignature_ok {Certificate : Type}
    {verifies : Certificate → Bytes → Bytes → Bool} {rawJson view : Bytes}
    {jsonPrefix : List Char} {rawSignature der : Bytes} {cert : Certificate}
    {errorStatus : ErrorStatus} (range : signedBytesView rawJson jsonPrefix = .ok view)
    (encoded : parseRawEcdsaToDerEncoding rawSignature = .ok der)
    (valid : verifies cert view der = true) :
    verifyJsonSignature verifies rawJson jsonPrefix rawSignature cert errorStatus = .ok () := by
  simp only [verifyJsonSignature, range, encoded, bind, Except.bind, valid, if_true]

theorem verifyTcbInfo_ok {Instant Certificate : Type} {runtime : Runtime Instant}
    {jsonTree : Bytes → Option Json} {verifies : Certificate → Bytes → Bytes → Bool}
    {raw view der : Bytes} {cert : Certificate} {signed : Signed (TcbInfo Instant)}
    (used : signedTcbInfo runtime jsonTree raw = .ok signed)
    (range : signedBytesView raw tcbInfoPrefix = .ok view)
    (encoded : parseRawEcdsaToDerEncoding signed.signature = .ok der)
    (valid : verifies cert view der = true) :
    verifyTcbInfo runtime jsonTree verifies raw cert = .ok () := by
  rw [verifyTcbInfo, used]
  exact verifyJsonSignature_ok range encoded valid

theorem verifyQeIdentity_ok {Instant Certificate : Type} {runtime : Runtime Instant}
    {jsonTree : Bytes → Option Json} {verifies : Certificate → Bytes → Bytes → Bool}
    {raw view der : Bytes} {cert : Certificate} {signed : Signed (EnclaveIdentity Instant)}
    (used : signedQeIdentity runtime jsonTree raw = .ok signed)
    (range : signedBytesView raw enclaveIdentityPrefix = .ok view)
    (encoded : parseRawEcdsaToDerEncoding signed.signature = .ok der)
    (valid : verifies cert view der = true) :
    verifyQeIdentity runtime jsonTree verifies raw cert = .ok () := by
  rw [verifyQeIdentity, used]
  exact verifyJsonSignature_ok range encoded valid

theorem acceptsOnly_record (record : List Char) (der : Bytes) :
    acceptsOnly record () (utf8 record) der = true :=
  beq_self_eq_true (utf8 record)

theorem signature_encoded : parseRawEcdsaToDerEncoding (List.replicate 64 0x11) =
    .ok (0x30 :: 0x44 :: (0x02 :: 0x20 :: List.replicate 32 0x11 ++
      0x02 :: 0x20 :: List.replicate 32 0x11)) := by
  rfl

theorem signatureText_parsed :
    parseHex (uppercase (signatureText.flatMap utf16)) = some (List.replicate 64 0x11) := by
  have written : signatureText.flatMap utf16 = toHexString (List.replicate 64 0x11) := by decide
  rw [written, uppercase_toHexString, parseHex_toHexString]

/-- The record with every evaluation data number that is an `Int` of the runtime. -/
theorem tcbInfoJson_read {number : Int} (fits : intValue (.int number) = some number) :
    TcbInfo.fromJson instants (tcbInfoJson (.int number)) = .ok (tcbInfoRecord number) := by
  have evaluation : getInt (tcbInfoJson (.int number)) (jstring "tcbEvaluationDataNumber") =
      .ok number := by
    have found : (tcbInfoJson (.int number)).get (jstring "tcbEvaluationDataNumber") =
        some (.int number) := rfl
    rw [getInt, getTyped, checkFieldExists, found]
    simp only [bind, Except.bind, fits]
  rw [TcbInfo.fromJson, evaluation]
  rfl

theorem enclaveIdentityJson_read :
    EnclaveIdentity.fromJson instants enclaveIdentityJson = .ok enclaveIdentityRecord := by
  rfl

def issuedTcbInfo : Bytes := utf8 (signedText "tcbInfo".toList (tcbInfoText ['5']) ['}'])

def issuedQeIdentity : Bytes :=
  utf8 (signedText "enclaveIdentity".toList enclaveIdentityText ['}'])

theorem signatureMember_marker (more : List Char) : JSON_SIGNATURE_MARKER <+: utf8 ('}' :: ',' ::
    (memberText "signature".toList (stringText signatureText) ++ more)) := by
  have opening : '}' :: ',' :: (memberText "signature".toList (stringText signatureText) ++ more) =
      "\x7d,\"signature\":\"".toList ++ (signatureText ++ '"' :: more) := by
    simp [memberText, stringText]
  rw [opening, utf8_append]
  exact List.prefix_append _ _

theorem signature_marker : lastIndexOf (utf8 ('}' :: ',' ::
    (memberText "signature".toList (stringText signatureText) ++ ['}'])))
    JSON_SIGNATURE_MARKER = .ok 0 :=
  lastIndexOf_first (signatureMember_marker _) (by decide +kernel)

theorem issuedTcbInfo_marker : lastIndexOf issuedTcbInfo JSON_SIGNATURE_MARKER =
    .ok ("tcbInfo".toList.length + 4 + (utf8 (tcbInfoText ['5'])).length - 1) :=
  signedText_marker (by decide) (tcbInfoText_value five_value) signature_marker

theorem issuedQeIdentity_marker : lastIndexOf issuedQeIdentity JSON_SIGNATURE_MARKER =
    .ok ("enclaveIdentity".toList.length + 4 + (utf8 enclaveIdentityText).length - 1) :=
  signedText_marker (by decide) enclaveIdentityText_value signature_marker

theorem issuedTcbInfo_used :
    signedTcbInfo instants readTree issuedTcbInfo =
      .ok ⟨tcbInfoRecord 5, List.replicate 64 0x11⟩ := by
  have plain : PlainName "tcbInfo".toList := by decide
  have tree := readTree_signedText plain (tcbInfoText_value five_value)
    signatureMember_later
  apply (readRecord_ok tree (SignedTcbInfo.fromJson instants) _).mpr
  exact signedFromJson_of_fields rfl (tcbInfoJson_read rfl)
    (getHexEncodedBytes_ok rfl signatureText_parsed)

theorem issuedQeIdentity_used :
    signedQeIdentity instants readTree issuedQeIdentity =
      .ok ⟨enclaveIdentityRecord, List.replicate 64 0x11⟩ := by
  have plain : PlainName "enclaveIdentity".toList := by decide
  have tree := readTree_signedText plain enclaveIdentityText_value signatureMember_later
  apply (readRecord_ok tree (SignedEnclaveIdentity.fromJson instants) _).mpr
  exact signedFromJson_of_fields rfl enclaveIdentityJson_read
    (getHexEncodedBytes_ok rfl signatureText_parsed)

theorem issuedTcbInfo_accepted :
    verifyTcbInfo instants readTree (acceptsOnly (tcbInfoText ['5'])) issuedTcbInfo () =
      .ok () := by
  have plain : PlainName "tcbInfo".toList := by decide
  have range := signedText_range plain (tcbInfoText_value five_value)
    issuedTcbInfo_marker
  exact verifyTcbInfo_ok issuedTcbInfo_used range signature_encoded (acceptsOnly_record _ _)

theorem issuedQeIdentity_accepted :
    verifyQeIdentity instants readTree (acceptsOnly enclaveIdentityText) issuedQeIdentity () =
      .ok () := by
  have plain : PlainName "enclaveIdentity".toList := by decide
  have range := signedText_range plain enclaveIdentityText_value issuedQeIdentity_marker
  exact verifyQeIdentity_ok issuedQeIdentity_used range signature_encoded (acceptsOnly_record _ _)

theorem collateralSignature_coversIssued :
    ReadsObjects readTree ∧
    verifyTcbInfo instants readTree (acceptsOnly (tcbInfoText ['5'])) issuedTcbInfo () = .ok () ∧
    TcbInfoCovered instants readTree (acceptsOnly (tcbInfoText ['5'])) issuedTcbInfo ∧
    verifyQeIdentity instants readTree (acceptsOnly enclaveIdentityText) issuedQeIdentity () =
      .ok () ∧
    QeIdentityCovered instants readTree (acceptsOnly enclaveIdentityText) issuedQeIdentity := by
  refine ⟨readTree_readsObjects, issuedTcbInfo_accepted, ?_, issuedQeIdentity_accepted, ?_⟩
  · have layout := signedText_layout (tcbInfoText_value five_value) (by decide)
      issuedTcbInfo_marker
    exact (collateralSignature_covers instants _ readTree_readsObjects).1 _ layout
  · have layout := signedText_layout enclaveIdentityText_value (by decide)
      issuedQeIdentity_marker
    exact (collateralSignature_covers instants _ readTree_readsObjects).2 _ layout

/-! A second record behind the signature is used in place of the signed one. -/

def extendedTcbInfo : Bytes :=
  utf8 (signedText "tcbInfo".toList (tcbInfoText ['5'])
    (',' :: (memberText "tcbInfo".toList (tcbInfoText ['6']) ++ ['}'])))

theorem extendedTcbInfo_used :
    signedTcbInfo instants readTree extendedTcbInfo =
      .ok ⟨tcbInfoRecord 6, List.replicate 64 0x11⟩ := by
  have plain : PlainName "tcbInfo".toList := by decide
  have blank : Ws [] := nofun
  have second := memberText_last plain (tcbInfoText_value six_value)
  have tree := readTree_signedText plain (tcbInfoText_value five_value)
    (.more blank (memberText_more (by decide) signatureText_value second))
  apply (readRecord_ok tree (SignedTcbInfo.fromJson instants) _).mpr
  exact signedFromJson_of_fields rfl (tcbInfoJson_read rfl)
    (getHexEncodedBytes_ok rfl signatureText_parsed)

theorem extendedTcbInfo_range :
    signedBytesView extendedTcbInfo tcbInfoPrefix = .ok (utf8 (tcbInfoText ['5'])) := by
  have plain : PlainName "tcbInfo".toList := by decide
  have opening : tcbInfoPrefix = '{' :: '"' :: ("tcbInfo".toList ++ ['"', ':']) := by decide
  rw [extendedTcbInfo, opening]
  refine signedText_range plain (tcbInfoText_value five_value) ?_
  apply signedText_marker plain (tcbInfoText_value five_value)
  exact lastIndexOf_first (signatureMember_marker _) (by decide +kernel)

theorem extendedTcbInfo_accepted :
    verifyTcbInfo instants readTree (acceptsOnly (tcbInfoText ['5'])) extendedTcbInfo () =
      .ok () :=
  verifyTcbInfo_ok extendedTcbInfo_used extendedTcbInfo_range signature_encoded
    (acceptsOnly_record _ _)

theorem extendedTcbInfo_uncovered :
    ¬ ((∀ raw, TcbInfoCovered instants readTree (acceptsOnly (tcbInfoText ['5'])) raw) ∧
      (∀ raw, QeIdentityCovered instants readTree (acceptsOnly enclaveIdentityText) raw)) := by
  rintro ⟨covered, _⟩
  obtain ⟨view, range, parsed⟩ :=
    covered extendedTcbInfo () _ extendedTcbInfo_accepted extendedTcbInfo_used
  rw [extendedTcbInfo_range] at range
  rw [← Except.ok.inj range] at parsed
  have blank : Ws [] := nofun
  have tree := readTree_readsObjects [] _ _ [] blank (tcbInfoText_value five_value) rfl
  rw [List.append_nil, List.nil_append] at tree
  rw [(readRecord_ok tree _ _).mpr (tcbInfoJson_read rfl)] at parsed
  have numbers := congrArg TcbInfo.tcbEvaluationDataNumber (Except.ok.inj parsed)
  exact absurd numbers (by decide)

end Conclave.Attestation
