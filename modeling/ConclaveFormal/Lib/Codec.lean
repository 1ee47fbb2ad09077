import ConclaveFormal.Lib.Attempt
import ConclaveFormal.Lib.DataStream

/-!
# Objects restored from a data stream

`Restore σ α` reads an `α` from a stream and changes the fields `σ` of an object
while it reads.  `Restores read bytes value change` says that `read` takes
exactly `bytes` from the front of any input, returns `value` and applies
`change` to the object; the rules below follow the structure of a reader.
-/

set_option autoImplicit false

namespace Conclave.Lib

inductive StreamError where
  | data (error : DataError)
  | negativeArraySize
  | illegalArgument
  | illegalState
  | dateTime
  deriving DecidableEq, Repr

abbrev Restore (σ α : Type) : Type := Attempt (σ × Bytes) StreamError α

namespace Restore

variable {σ α β : Type}

def ofData (reader : DataInput α) : Restore σ α := fun (object, input) =>
  match reader input with
  | .ok (value, rest) => (.ok value, (object, rest))
  | .error e => (.error (.data e), (object, input))

def update (change : σ → σ) : Restore σ Unit :=
  Attempt.modify fun (object, input) => (change object, input)

def check (condition : Bool) (error : StreamError) : Restore σ Unit :=
  if condition then pure () else Attempt.throw error

/-- The next byte, or -1 at the end of the stream. -/
def read : Restore σ Int := fun (object, input) =>
  match input with
  | [] => (.ok (-1), (object, []))
  | byte :: rest => (.ok byte.toNat, (object, rest))

def readInt : Restore σ Int := do
  let value ← ofData (readUnsigned 4)
  return wrap32 value

def readBoolean : Restore σ Bool := do
  let value ← ofData (readUnsigned 1)
  return value != 0

def readExactlyNBytes (n : Int) : Restore σ Bytes :=
  if n < 0 then Attempt.throw .negativeArraySize else ofData (readFully n.toNat)

def readIntLengthPrefixBytes : Restore σ Bytes := do
  let size ← readInt
  readExactlyNBytes size

def nullableRead (block : Restore σ α) : Restore σ (Option α) := do
  let isNull ← readBoolean
  if isNull then
    return none
  else
    let value ← block
    return some value

def repeatTimes : Nat → Restore σ Unit → Restore σ Unit
  | 0, _ => pure ()
  | times + 1, block => do
      block
      repeatTimes times block

/-- As many values, one after the other. -/
def readTimes : Nat → Restore σ α → Restore σ (List α)
  | 0, _ => pure []
  | times + 1, block => do
      let first ← block
      let later ← readTimes times block
      return first :: later

/-- `Array(readInt()) { .. }` -/
def readList (block : Restore σ α) : Restore σ (List α) := do
  let size ← readInt
  if size < 0 then Attempt.throw .negativeArraySize else readTimes size.toNat block

end Restore

/-! ## Encodings -/

def writeInt (value : Nat) : Bytes := bigEndian 4 value

def writeIntLengthPrefixBytes (bytes : Bytes) : Bytes := writeInt bytes.length ++ bytes

theorem length_writeIntLengthPrefixBytes (bytes : Bytes) :
    (writeIntLengthPrefixBytes bytes).length = 4 + bytes.length := by
  rw [writeIntLengthPrefixBytes, List.length_append, writeInt, bigEndian_length]

def nullableWrite {α : Type} (block : α → Bytes) : Option α → Bytes
  | none => [1]
  | some value => 0 :: block value

theorem length_le_flatMap {α : Type} {encode : α → Bytes} {value : α} {values : List α}
    (member : value ∈ values) : (encode value).length ≤ (values.flatMap encode).length := by
  induction values with
  | nil => cases member
  | cons first rest ih =>
      rw [List.flatMap_cons, List.length_append]
      rcases List.mem_cons.mp member with rfl | later
      · omega
      · have bound := ih later
        omega

theorem count_le_flatMap {α : Type} {encode : α → Bytes} {values : List α}
    (nonempty : ∀ value ∈ values, 0 < (encode value).length) :
    values.length ≤ (values.flatMap encode).length := by
  induction values with
  | nil => exact Nat.zero_le _
  | cons first rest ih =>
      have head := nonempty first List.mem_cons_self
      have tail := ih fun value member => nonempty value (List.mem_cons_of_mem first member)
      rw [List.flatMap_cons, List.length_append, List.length_cons]
      omega

/-! ## What a reader takes from the front of its input -/

def Restores {σ α : Type} (reader : Restore σ α) (bytes : Bytes) (value : α)
    (change : σ → σ) : Prop :=
  ∀ object rest, reader (object, bytes ++ rest) = (.ok value, (change object, rest))

namespace Restores

open Restore

variable {σ α β : Type}

theorem pure (value : α) : Restores (Pure.pure value : Restore σ α) [] value id := by
  intro object rest
  rfl

theorem bind_apply {reader : Restore σ α} {bytes : Bytes} {value : α} {change : σ → σ}
    (taken : Restores reader bytes value change) (next : α → Restore σ β) (object : σ)
    (rest : Bytes) :
    (reader >>= next) (object, bytes ++ rest) = next value (change object, rest) :=
  Attempt.bind_ok (taken object rest)

theorem bind {reader : Restore σ α} {next : α → Restore σ β} {bytes more : Bytes} {value : α}
    {result : β} {change following : σ → σ} (taken : Restores reader bytes value change)
    (later : Restores (next value) more result following) :
    Restores (reader >>= next) (bytes ++ more) result
      (fun object => following (change object)) := by
  intro object rest
  rw [List.append_assoc, taken.bind_apply]
  exact later (change object) rest

/-- A reader followed by one that takes nothing. -/
theorem bind_pure {reader : Restore σ α} {bytes : Bytes} {value : α} {change : σ → σ}
    (taken : Restores reader bytes value change) (result : α → β) :
    Restores (reader >>= fun value => Pure.pure (result value)) bytes (result value)
      change := by
  intro object rest
  rw [taken.bind_apply]
  rfl

theorem update (change : σ → σ) : Restores (Restore.update change) [] () change := by
  intro object rest
  rfl

theorem check_bind {condition : Bool} (holds : condition = true) (error : StreamError)
    (next : Unit → Restore σ β) (state : σ × Bytes) :
    (Restore.check condition error >>= next) state = next () state := by
  rw [Restore.check, if_pos holds]
  rfl

theorem ofData {reader : DataInput α} {bytes : Bytes} {value : α}
    (taken : ∀ rest, reader (bytes ++ rest) = .ok (value, rest)) :
    Restores (Restore.ofData (σ := σ) reader) bytes value id := by
  intro object rest
  simp only [Restore.ofData, taken rest]
  rfl

theorem read (byte : UInt8) : Restores (Restore.read (σ := σ)) [byte] byte.toNat id := by
  intro object rest
  rfl

theorem readInt_signed {value : Nat} (fits : value < 2 ^ 32) :
    Restores (Restore.readInt (σ := σ)) (writeInt value) (wrap32 value) id :=
  bind_pure (ofData fun rest => readUnsigned_bigEndian 4 value rest fits) fun value => wrap32 value

theorem readInt {value : Nat} (fits : value < 2 ^ 31) :
    Restores (Restore.readInt (σ := σ)) (writeInt value) value id := by
  have taken := readInt_signed (σ := σ) (by omega : value < 2 ^ 32)
  have signed : wrap32 value = value := wrap32_of_range (by omega) (by omega)
  rw [signed] at taken
  exact taken

theorem readBoolean (value : Bool) :
    Restores (Restore.readBoolean (σ := σ)) [if value then 1 else 0] value id := by
  intro object rest
  cases value <;> rfl

theorem readExactlyNBytes (bytes : Bytes) :
    Restores (Restore.readExactlyNBytes (σ := σ) bytes.length) bytes bytes id := by
  have nonnegative : ¬ (bytes.length : Int) < 0 := by omega
  rw [Restore.readExactlyNBytes, if_neg nonnegative, Int.toNat_natCast]
  exact ofData (readFully_append bytes)

theorem readIntLengthPrefixBytes {bytes : Bytes} (fits : bytes.length < 2 ^ 31) :
    Restores (Restore.readIntLengthPrefixBytes (σ := σ)) (writeIntLengthPrefixBytes bytes)
      bytes id := by
  intro object rest
  rw [writeIntLengthPrefixBytes, List.append_assoc, Restore.readIntLengthPrefixBytes,
    (readInt fits).bind_apply]
  exact readExactlyNBytes bytes object rest

theorem nullableRead {reader : Restore σ α} {block : α → Bytes} (value : Option α)
    (taken : ∀ content ∈ value, Restores reader (block content) content id) :
    Restores (Restore.nullableRead reader) (nullableWrite block value) value id := by
  cases value with
  | none =>
      intro object rest
      exact (readBoolean true).bind_apply _ object rest
  | some value =>
      intro object rest
      have later := bind_pure (taken value rfl) some object rest
      exact ((readBoolean false).bind_apply _ object (block value ++ rest)).trans later

/-- A loop whose rounds take the encodings of a list one after the other. -/
theorem repeatTimes {block : Restore σ Unit} {encode : α → Bytes} {change : α → σ → σ}
    {values : List α} (round : ∀ value ∈ values, Restores block (encode value) () (change value)) :
    Restores (Restore.repeatTimes values.length block) (values.flatMap encode) ()
      (fun object => values.foldl (fun object value => change value object) object) := by
  induction values with
  | nil => exact pure ()
  | cons value values ih =>
      have first := round value List.mem_cons_self
      have later := ih fun other member => round other (List.mem_cons_of_mem value member)
      intro object rest
      rw [List.flatMap_cons, List.append_assoc, List.length_cons, Restore.repeatTimes,
        first.bind_apply]
      exact later (change value object) rest

theorem readTimes_cons {block : Restore σ α} {times : Nat} {value : α} {values : List α}
    {bytes more : Bytes} (first : Restores block bytes value id)
    (later : Restores (Restore.readTimes times block) more values id) :
    Restores (Restore.readTimes (times + 1) block) (bytes ++ more) (value :: values) id :=
  first.bind (later.bind_pure fun values => value :: values)

theorem readList {block : Restore σ α} {values : List α} {bytes : Bytes}
    (few : values.length < 2 ^ 31)
    (taken : Restores (Restore.readTimes values.length block) bytes values id) :
    Restores (Restore.readList block) (writeInt values.length ++ bytes) values id := by
  rw [Restore.readList]
  refine (readInt few).bind ?_
  rw [if_neg (by omega), Int.toNat_natCast]
  exact taken

end Restores

end Conclave.Lib
