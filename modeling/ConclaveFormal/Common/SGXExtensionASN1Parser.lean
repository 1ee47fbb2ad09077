import ConclaveFormal.Lib.AssocMap
import ConclaveFormal.Lib.Der
import ConclaveFormal.Lib.Fallible
import ConclaveFormal.Lib.Hex
import ConclaveFormal.Lib.Json

/-!
# The parser of the SGX extension

`decode` is a loop over the fields of a sequence which calls itself for the sequences inside it; all
the calls move one offset through the data.  Its fuel bounds the rounds of the loop and the depth of
the calls together, and `none` is a run that has not come to its end within it.
-/

set_option autoImplicit false

namespace Conclave.Common

open Conclave.Lib Conclave.Lib.Json

inductive ParserError where
  | illegalArgument (message : JString)
  | runtime (message : JString)
  | arrayIndexOutOfBounds
  | indexOutOfBounds
  | noSuchElement
  deriving DecidableEq

structure ValuePos where
  offset : Int
  length : Int
  deriving DecidableEq

def SEQ_TAG : Nat := 0x30
def OID_TAG : Nat := 0x06
def OCTSTR_TAG : Nat := 0x04
def INT_TAG : Nat := 0x02
def ENUM_TAG : Nat := 0x0A
def BOOL_TAG : Nat := 0x01

/-- `sequences` is not in the source: it remembers where the contents of the sequence begin and end
in which a value has been recorded. -/
structure SGXExtensionASN1Parser where
  offset : Int
  values : AssocMap JString ValuePos
  types : AssocMap JString Nat
  sequences : AssocMap JString (Int × Int)

namespace SGXExtensionASN1Parser

section Reading

variable (data : Bytes)

/-- `data[index].toInt() and 0xFF`. -/
def byteAt (index : Int) : Except ParserError Nat :=
  if index < 0 then .error .arrayIndexOutOfBounds
  else
    match data[index.toNat]? with
    | some byte => .ok byte.toNat
    | none => .error .arrayIndexOutOfBounds

def readUByte (offset : Int) : Except ParserError (Nat × Int) := do
  return (← byteAt data offset, wrap32 (offset + 1))

def readLengthOctets : Nat → Int → Int → Except ParserError (Int × Int)
  | 0, length, offset => .ok (length, offset)
  | cnt + 1, length, offset => do
      let (byte, offset) ← readUByte data offset
      readLengthOctets cnt (wrap32 (wrap32 (length * 256) + byte)) offset

def readLength (offset : Int) : Except ParserError (Int × Int) := do
  let (length, offset) ← readUByte data offset
  if length > 127 then readLengthOctets data (length &&& 0x7F) 0 offset
  else return (length, offset)

/-- The numbers behind the first two. -/
def readArcs : Nat → JString → Int → Int → Except ParserError (JString × Int)
  | 0, text, _, offset => .ok (text, offset)
  | count + 1, text, value, offset => do
      let byte ← byteAt data offset
      let delta := byte &&& 0x80
      let value := wrap32 (wrap32 (value * 128) + (byte - delta))
      if delta = 0 then readArcs count (text ++ dot :: intText value) 0 (wrap32 (offset + 1))
      else readArcs count text value (wrap32 (offset + 1))

def readObjectIDString (offset : Int) : Except ParserError (JString × Int) := do
  let (length, offset) ← readLength data offset
  let (value, offset) ← readUByte data offset
  readArcs data (length - 1).toNat (natText (value / 40) ++ dot :: natText (value % 40)) 0 offset

def valuePos (offset : Int) : Except ParserError (ValuePos × Int) := do
  let (length, offset) ← readLength data offset
  return (⟨offset, length⟩, wrap32 (offset + length))

end Reading

/-! ## The constructor -/

/-- The variables of one call of `decode`; `start` is where its fields begin. -/
structure Fields where
  start : Int
  stop : Int
  key : Option JString
  value : Option ValuePos
  type : Nat
  deriving DecidableEq

def Fields.reset (fields : Fields) : Fields :=
  { fields with key := none, value := none, type := 0 }

/-- The end of a round, where a key and a value have been seen. -/
def record (fields : Fields) (parser : SGXExtensionASN1Parser) :
    Except ParserError SGXExtensionASN1Parser :=
  match fields.key, fields.value with
  | some key, some value =>
      if key ∈ parser.values then
        .error (.illegalArgument (jstring "values: duplicate key " ++ key))
      else if key ∈ parser.types then
        .error (.runtime (jstring "types: duplicate key " ++ key))
      else .ok { parser with
        values := parser.values.insert key value
        types := parser.types.insert key fields.type
        sequences := parser.sequences.insert key (fields.start, fields.stop) }
  | _, _ => .ok parser

/-- What a round of the loop does: it comes to a sequence, behind whose tag the parser stands, or
it goes on to the next round. -/
inductive Round where
  | sequence (parser : SGXExtensionASN1Parser)
  | next (fields : Fields) (parser : SGXExtensionASN1Parser)

def hexByte (tag : Nat) : JString := jstring "0x" ++ toHexString [UInt8.ofNat tag]

section Decoding

variable (data : Bytes)

def round (fields : Fields) (parser : SGXExtensionASN1Parser) : Except ParserError Round := do
  let (tag, offset) ← readUByte data parser.offset
  if tag = SEQ_TAG then return .sequence { parser with offset := offset }
  else if tag = OID_TAG then
    let (key, offset) ← readObjectIDString data offset
    let fields := { fields with key := some key }
    return .next fields (← record fields { parser with offset := offset })
  else if tag ∈ [OCTSTR_TAG, INT_TAG, ENUM_TAG, BOOL_TAG] then
    let (value, offset) ← valuePos data offset
    let fields := { fields with value := some value, type := tag }
    return .next fields (← record fields { parser with offset := offset })
  else .error (.illegalArgument (jstring "unknown tag " ++ hexByte tag))

/-- The lines of `decode` above its loop. -/
def enter (parser : SGXExtensionASN1Parser) :
    Except ParserError (Fields × SGXExtensionASN1Parser) := do
  let (length, offset) ← readLength data parser.offset
  return (⟨offset, wrap32 (offset + length), none, none, 0⟩, { parser with offset := offset })

abbrev Result : Type := Option (Except ParserError SGXExtensionASN1Parser)

/-- The loop.  A sequence is decoded by the same loop with variables of its own; behind it the
key, the value and the type are unset. -/
def decodeFields : Nat → Fields → SGXExtensionASN1Parser → Result
  | 0, _, _ => none
  | fuel + 1, fields, parser =>
      if parser.offset < fields.stop then
        match round data fields parser with
        | .error error => some (.error error)
        | .ok (.next fields parser) => decodeFields fuel fields parser
        | .ok (.sequence parser) =>
            match enter data parser with
            | .error error => some (.error error)
            | .ok (inner, parser) =>
                match decodeFields fuel inner parser with
                | some (.ok parser) => decodeFields fuel fields.reset parser
                | other => other
      else some (.ok parser)

def decode (fuel : Nat) (parser : SGXExtensionASN1Parser) : Result :=
  match enter data parser with
  | .error error => some (.error error)
  | .ok (fields, parser) => decodeFields data fuel fields parser

/-- The constructor up to the call of `decode`. -/
def begin : Except ParserError SGXExtensionASN1Parser := do
  if data.length < 2 then
    throw (.illegalArgument
      (jstring "Octet string too short: " ++ natText data.length))
  let (tag, offset) ← readUByte data 0
  if tag = OCTSTR_TAG then return ⟨offset, ∅, ∅, ∅⟩
  else .error (.illegalArgument (jstring "octet_string: invalid tag " ++ hexByte tag))

/-- The constructor. -/
def new (fuel : Nat) : Result :=
  match begin data with
  | .error error => some (.error error)
  | .ok parser => decode data fuel parser

variable {data : Bytes}

theorem begin_of_tag (long : 2 ≤ data.length) (tag : byteAt data 0 = .ok OCTSTR_TAG) :
    begin data = .ok ⟨1, ∅, ∅, ∅⟩ := by
  have moved : wrap32 (0 + 1) = 1 := by decide
  rw [begin, if_neg (by omega), readUByte, bind_of_ok tag, moved]
  rfl

theorem enter_of_length {parser : SGXExtensionASN1Parser} {length offset : Int}
    (read : readLength data parser.offset = .ok (length, offset)) :
    enter data parser = .ok (⟨offset, wrap32 (offset + length), none, none, 0⟩,
      { parser with offset := offset }) := by
  rw [enter, bind_of_ok read]
  rfl

end Decoding

/-! ## What has been read -/

section Values

variable (data : Bytes)

/-- `ByteBuffer.wrap`, and the bytes it gives. -/
def wrap (offset length : Int) : Except ParserError Bytes :=
  if 0 ≤ offset ∧ offset ≤ data.length ∧ 0 ≤ length ∧ length ≤ data.length - offset then
    .ok ((data.drop offset.toNat).take length.toNat)
  else .error .indexOutOfBounds

variable (parser : SGXExtensionASN1Parser)

def getValue (id : JString) : Except ParserError ValuePos :=
  match parser.values.lookup id with
  | some position => .ok position
  | none => .error .noSuchElement

def getBytes (id : JString) : Except ParserError Bytes := do
  let position ← parser.getValue id
  wrap data position.offset position.length

def type (id : JString) : Nat := (parser.types.lookup id).getD 0

def keys : List JString := parser.values.keys

/-- The loop of `getInt`. -/
def intAt : Nat → Int → Int → Except ParserError Int
  | 0, _, result => .ok result
  | count + 1, offset, result => do
      let byte ← byteAt data offset
      intAt count (wrap32 (offset + 1)) (wrap32 (wrap32 (result * 256) + byte))

def getInt (id : JString) : Except ParserError Int := do
  let type := parser.type id
  if type ≠ INT_TAG ∧ type ≠ ENUM_TAG then
    throw (.illegalArgument (jstring "value[" ++ id ++
      jstring "] is not an integer or an enum: type=" ++ natText type))
  let position ← parser.getValue id
  intAt data position.length.toNat position.offset 0

end Values

end SGXExtensionASN1Parser

end Conclave.Common
