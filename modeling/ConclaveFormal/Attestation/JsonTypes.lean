import ConclaveFormal.Lib.Hex
import ConclaveFormal.Lib.Json

/-!
# The types of the attestation collateral

The records that are read out of the collateral's JSON trees.  Every reader fails
with the message of the exception it throws.  Reading a date and printing a
floating-point number are the runtime's.
-/

set_option autoImplicit false

namespace Conclave.Attestation

open Conclave.Lib Conclave.Lib.Json

structure Runtime (Instant : Type) where
  parseInstant : JString → Option Instant
  doubleText : List Char → JString

/-! ## Fields of a tree -/

def nodeType : Json → JString
  | .null => jstring "NULL"
  | .bool _ => jstring "BOOLEAN"
  | .int _ => jstring "NUMBER"
  | .decimal _ => jstring "NUMBER"
  | .string _ => jstring "STRING"
  | .array _ => jstring "ARRAY"
  | .object _ => jstring "OBJECT"

def require (condition : Bool) (message : JString) : Except JString Unit :=
  if condition then .ok () else .error message

def checkFieldExists (json : Json) (fieldName : JString) : Except JString Json :=
  match json.get fieldName with
  | some field => .ok field
  | none => .error (jstring "No such field " ++ fieldName ++ jstring ".")

/-- A field of one kind of node: its value, or that another kind was found. -/
def getTyped {α : Type} (kind : JString) (value : Json → Option α) (json : Json)
    (fieldName : JString) : Except JString α := do
  let field ← checkFieldExists json fieldName
  match value field with
  | some value => .ok value
  | none => .error (jstring "Expected " ++ fieldName ++ jstring " to be " ++ kind ++
      jstring ", got " ++ nodeType field ++ jstring ".")

def intValue : Json → Option Int
  | .int value => if -2 ^ 31 ≤ value ∧ value < 2 ^ 31 then some value else none
  | _ => none

def textValue : Json → Option JString
  | .string text => some text
  | _ => none

def arrayValue : Json → Option (List Json)
  | .array elements => some elements
  | _ => none

def objectValue : Json → Option Json
  | .object members => some (.object members)
  | _ => none

def getInt := getTyped (jstring "an integer") intValue

def getString := getTyped (jstring "a string") textValue

def getArray := getTyped (jstring "an array") arrayValue

def getObject := getTyped (jstring "an object") objectValue

def getHexEncodedBytes (json : Json) (fieldName : JString) : Except JString Bytes := do
  let hexString ← getString json fieldName
  match parseHex (uppercase hexString) with
  | some bytes => .ok bytes
  | none => .error (jstring "Expected " ++ fieldName ++
      jstring " to be a valid hex string, got '" ++ hexString ++ jstring "'.")

/-- The constant of an enumeration by its name. -/
def valueOf {α : Type} (enumClass : String) (constants : List (String × α)) (name : JString) :
    Except JString α :=
  match constants.find? fun constant => jstring constant.1 == name with
  | some constant => .ok constant.2
  | none => .error (jstring "No enum constant com.r3.conclave.common.internal.attestation." ++
      jstring enumClass ++ jstring "." ++ name)

/-- The children of a node; a repeated name of an object keeps its first place and
its last value. -/
def children : Json → List Json
  | .array elements => elements
  | .object members =>
      ((members.map Prod.fst).reverse.dedup.reverse).filterMap (Json.get (.object members))
  | _ => []

section Dates

variable {Instant : Type} (runtime : Runtime Instant)

def getInstant (json : Json) (fieldName : JString) : Except JString Instant := do
  let dateString ← getString json fieldName
  match runtime.parseInstant dateString with
  | some date => .ok date
  | none => .error (jstring "Expected " ++ fieldName ++
      jstring " to be a date in ISO-8601 format, got " ++ dateString)

def asText : Json → JString
  | .null => jstring "null"
  | .bool value => jstring (if value then "true" else "false")
  | .int value => jstring (toString value)
  | .decimal text => runtime.doubleText text
  | .string text => text
  | .array _ => []
  | .object _ => []

def getNullable {α : Type} (json : Json) (fieldName : JString) (fn : Json → α) : Option α :=
  match json.get fieldName with
  | none => none
  | some .null => none
  | some field => some (fn field)

end Dates

/-! ## TCB information -/

inductive TypeID where
  | SGX
  | TDX
  deriving DecidableEq, Repr

def TypeID.valueOf : JString → Except JString TypeID :=
  Attestation.valueOf "TypeID" [("SGX", .SGX), ("TDX", .TDX)]

inductive TcbInfo.Version where
  | V2
  | V3
  deriving DecidableEq, Repr

def TcbInfo.Version.fromInt (version : Int) : Except JString TcbInfo.Version :=
  if version = 2 then .ok .V2
  else if version = 3 then .ok .V3
  else .error (jstring "Unsupported TcbInfo json version: " ++ jstring (toString version))

inductive TcbStatus where
  | UpToDate
  | SWHardeningNeeded
  | ConfigurationNeeded
  | ConfigurationAndSWHardeningNeeded
  | OutOfDate
  | OutOfDateConfigurationNeeded
  | Revoked
  deriving DecidableEq, Repr

def TcbStatus.valueOf : JString → Except JString TcbStatus :=
  Attestation.valueOf "TcbStatus" [("UpToDate", .UpToDate),
    ("SWHardeningNeeded", .SWHardeningNeeded), ("ConfigurationNeeded", .ConfigurationNeeded),
    ("ConfigurationAndSWHardeningNeeded", .ConfigurationAndSWHardeningNeeded),
    ("OutOfDate", .OutOfDate), ("OutOfDateConfigurationNeeded", .OutOfDateConfigurationNeeded),
    ("Revoked", .Revoked)]

structure Tcb where
  sgxtcbcompsvn : List Int
  pcesvn : Int
  deriving DecidableEq, Repr

/-- Two decimal digits of a component's number. -/
def elementString (i : Nat) : JString :=
  if i < 10 then jstring "0" ++ jstring (toString i) else jstring (toString i)

def Tcb.fromJsonV2 (json : Json) : Except JString Tcb := do
  let sgxtcbcompsvn ← (List.range 16).mapM fun i =>
    getInt json (jstring "sgxtcbcomp" ++ elementString (i + 1) ++ jstring "svn")
  let pcesvn ← getInt json (jstring "pcesvn")
  return ⟨sgxtcbcompsvn, pcesvn⟩

def Tcb.fromJsonV3 (json : Json) : Except JString Tcb := do
  let tcbComponents ← getArray json (jstring "sgxtcbcomponents")
  require (tcbComponents.length == 16) (jstring
    "Unexpected tcb component count, expected 16, got " ++ jstring (toString tcbComponents.length))
  let sgxtcbcompsvn ← tcbComponents.mapM fun component => getInt component (jstring "svn")
  let pcesvn ← getInt json (jstring "pcesvn")
  return ⟨sgxtcbcompsvn, pcesvn⟩

def Tcb.fromJson (json : Json) : TcbInfo.Version → Except JString Tcb
  | .V2 => Tcb.fromJsonV2 json
  | .V3 => Tcb.fromJsonV3 json

structure TcbLevel (Instant : Type) where
  tcb : Tcb
  tcbDate : Instant
  tcbStatus : TcbStatus
  advisoryIDs : Option (List JString)
  deriving DecidableEq

structure TcbInfo (Instant : Type) where
  id : Option TypeID
  version : TcbInfo.Version
  issueDate : Instant
  nextUpdate : Instant
  fmspc : Bytes
  pceId : Bytes
  tcbType : Int
  tcbEvaluationDataNumber : Int
  tcbLevels : List (TcbLevel Instant)
  deriving DecidableEq

section Readers

variable {Instant : Type} (runtime : Runtime Instant)

def TcbLevel.fromJson (json : Json) (version : TcbInfo.Version) :
    Except JString (TcbLevel Instant) := do
  let tcb ← Tcb.fromJson (← getObject json (jstring "tcb")) version
  let tcbDate ← getInstant runtime json (jstring "tcbDate")
  let tcbStatus ← TcbStatus.valueOf (← getString json (jstring "tcbStatus"))
  let advisoryIDs := getNullable json (jstring "advisoryIDs") fun node =>
    (children node).map (asText runtime)
  return ⟨tcb, tcbDate, tcbStatus, advisoryIDs⟩

def TcbInfo.fromJson (json : Json) : Except JString (TcbInfo Instant) := do
  let version ← TcbInfo.Version.fromInt (← getInt json (jstring "version"))
  let id ← match version with
    | .V2 => pure none
    | .V3 => some <$> (getString json (jstring "id") >>= TypeID.valueOf)
  let issueDate ← getInstant runtime json (jstring "issueDate")
  let nextUpdate ← getInstant runtime json (jstring "nextUpdate")
  let fmspc ← getHexEncodedBytes json (jstring "fmspc")
  let pceId ← getHexEncodedBytes json (jstring "pceId")
  let tcbType ← getInt json (jstring "tcbType")
  let tcbEvaluationDataNumber ← getInt json (jstring "tcbEvaluationDataNumber")
  let tcbLevels ← (← getArray json (jstring "tcbLevels")).mapM fun level =>
    TcbLevel.fromJson runtime level version
  return ⟨id, version, issueDate, nextUpdate, fmspc, pceId, tcbType, tcbEvaluationDataNumber,
    tcbLevels⟩

end Readers

/-! ## The identity of the quoting enclave -/

inductive EnclaveIdentity.Version where
  | V2
  deriving DecidableEq, Repr

def EnclaveIdentity.Version.fromInt (version : Int) : Except JString EnclaveIdentity.Version :=
  if version = 2 then .ok .V2
  else .error (jstring "Unsupported EnclaveIdentity json version: " ++ jstring (toString version))

inductive EnclaveTcbStatus where
  | UpToDate
  | OutOfDate
  | Revoked
  deriving DecidableEq, Repr

def EnclaveTcbStatus.valueOf : JString → Except JString EnclaveTcbStatus :=
  Attestation.valueOf "EnclaveTcbStatus"
    [("UpToDate", .UpToDate), ("OutOfDate", .OutOfDate), ("Revoked", .Revoked)]

structure EnclaveTcb where
  isvsvn : Int
  deriving DecidableEq, Repr

def EnclaveTcb.fromJson (json : Json) : Except JString EnclaveTcb := do
  return ⟨← getInt json (jstring "isvsvn")⟩

structure EnclaveTcbLevel (Instant : Type) where
  tcb : EnclaveTcb
  tcbDate : Instant
  tcbStatus : EnclaveTcbStatus
  deriving DecidableEq

structure EnclaveIdentity (Instant : Type) where
  id : JString
  version : EnclaveIdentity.Version
  issueDate : Instant
  nextUpdate : Instant
  tcbEvaluationDataNumber : Int
  miscselect : Bytes
  miscselectMask : Bytes
  attributes : Bytes
  attributesMask : Bytes
  mrsigner : Bytes
  isvprodid : Int
  tcbLevels : List (EnclaveTcbLevel Instant)
  deriving DecidableEq

section Readers

variable {Instant : Type} (runtime : Runtime Instant)

def EnclaveTcbLevel.fromJson (json : Json) : Except JString (EnclaveTcbLevel Instant) := do
  let tcb ← EnclaveTcb.fromJson (← getObject json (jstring "tcb"))
  let tcbDate ← getInstant runtime json (jstring "tcbDate")
  let tcbStatus ← EnclaveTcbStatus.valueOf (← getString json (jstring "tcbStatus"))
  return ⟨tcb, tcbDate, tcbStatus⟩

def EnclaveIdentity.fromJson (json : Json) : Except JString (EnclaveIdentity Instant) := do
  let version ← EnclaveIdentity.Version.fromInt (← getInt json (jstring "version"))
  let id ← getString json (jstring "id")
  let issueDate ← getInstant runtime json (jstring "issueDate")
  let nextUpdate ← getInstant runtime json (jstring "nextUpdate")
  let tcbEvaluationDataNumber ← getInt json (jstring "tcbEvaluationDataNumber")
  let miscselect ← getHexEncodedBytes json (jstring "miscselect")
  let miscselectMask ← getHexEncodedBytes json (jstring "miscselectMask")
  let attributes ← getHexEncodedBytes json (jstring "attributes")
  let attributesMask ← getHexEncodedBytes json (jstring "attributesMask")
  let mrsigner ← getHexEncodedBytes json (jstring "mrsigner")
  let isvprodid ← getInt json (jstring "isvprodid")
  let tcbLevels ← (← getArray json (jstring "tcbLevels")).mapM fun level =>
    EnclaveTcbLevel.fromJson runtime level
  return ⟨id, version, issueDate, nextUpdate, tcbEvaluationDataNumber, miscselect,
    miscselectMask, attributes, attributesMask, mrsigner, isvprodid, tcbLevels⟩

end Readers

/-! ## Signed documents -/

/-- A record together with the signature that stands beside it. -/
structure Signed (α : Type) where
  content : α
  signature : Bytes
  deriving DecidableEq

def signedFromJson {α : Type} (fieldName : JString) (fromJson : Json → Except JString α)
    (json : Json) : Except JString (Signed α) := do
  let content ← fromJson (← getObject json fieldName)
  let signature ← getHexEncodedBytes json (jstring "signature")
  return ⟨content, signature⟩

def SignedTcbInfo.fromJson {Instant : Type} (runtime : Runtime Instant) :
    Json → Except JString (Signed (TcbInfo Instant)) :=
  signedFromJson (jstring "tcbInfo") (TcbInfo.fromJson runtime)

def SignedEnclaveIdentity.fromJson {Instant : Type} (runtime : Runtime Instant) :
    Json → Except JString (Signed (EnclaveIdentity Instant)) :=
  signedFromJson (jstring "enclaveIdentity") (EnclaveIdentity.fromJson runtime)

/-- The record of a signed document is read out of the object found under its name. -/
theorem signedFromJson_ok {α : Type} {fieldName : JString} {fromJson : Json → Except JString α}
    {json : Json} {signed : Signed α} (read : signedFromJson fieldName fromJson json = .ok signed) :
    ∃ field, json.get fieldName = some field ∧ field.isObject = true ∧
      fromJson field = .ok signed.content := by
  rw [signedFromJson, getObject, getTyped, checkFieldExists] at read
  cases found : json.get fieldName with
  | none =>
      rw [found] at read
      cases read
  | some field =>
      rw [found] at read
      cases field with
      | object members =>
          refine ⟨_, rfl, rfl, ?_⟩
          cases content : fromJson (.object members) with
          | error message =>
              simp only [objectValue, bind, Except.bind, content] at read
              cases read
          | ok content' =>
              simp only [objectValue, bind, Except.bind, content] at read
              cases signature : getHexEncodedBytes json (jstring "signature") with
              | error message =>
                  rw [signature] at read
                  cases read
              | ok bytes =>
                  rw [signature] at read
                  cases read
                  rfl
      | null => cases read
      | bool value => cases read
      | int value => cases read
      | decimal text => cases read
      | string text => cases read
      | array elements => cases read

theorem getHexEncodedBytes_ok {json : Json} {fieldName text : JString} {bytes : Bytes}
    (found : json.get fieldName = some (.string text))
    (parsed : parseHex (uppercase text) = some bytes) :
    getHexEncodedBytes json fieldName = .ok bytes := by
  have read : getString json fieldName = .ok text := by
    rw [getString, getTyped, checkFieldExists, found]
    rfl
  rw [getHexEncodedBytes, read]
  simp only [bind, Except.bind, parsed]

theorem signedFromJson_of_fields {α : Type} {fieldName : JString}
    {fromJson : Json → Except JString α} {json : Json} {members : List (JString × Json)}
    {content : α} {signature : Bytes} (found : json.get fieldName = some (.object members))
    (read : fromJson (.object members) = .ok content)
    (signed : getHexEncodedBytes json (jstring "signature") = .ok signature) :
    signedFromJson fieldName fromJson json = .ok ⟨content, signature⟩ := by
  have field : getObject json fieldName = .ok (.object members) := by
    rw [getObject, getTyped, checkFieldExists, found]
    rfl
  simp only [signedFromJson, field, read, signed, bind, Except.bind]
  rfl

end Conclave.Attestation
