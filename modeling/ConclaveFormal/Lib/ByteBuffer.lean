import ConclaveFormal.Lib.Codec
import ConclaveFormal.Lib.Utf8

/-!
# Reading from a byte buffer

A reader takes its value from the front of the remaining bytes.  `Reads` says which bytes it takes,
and `Short` that each proper prefix of them makes it throw.  Both follow the structure of a reader.
-/

set_option autoImplicit false

namespace Conclave.Lib

inductive BufferError where
  | bufferUnderflow
  | negativeArraySize
  | illegalArgument
  | illegalState
  | decoding
  deriving DecidableEq, Repr

abbrev BufferReader (α : Type) : Type := StateT Bytes (Except BufferError) α

namespace BufferReader

variable {α β : Type}

def throw (e : BufferError) : BufferReader α := fun _ => .error e

def require (condition : Bool) : BufferReader Unit :=
  if condition then pure () else throw .illegalArgument

def ofOption : Option α → BufferReader α
  | some value => pure value
  | none => throw .decoding

def take (length : Nat) : BufferReader Bytes := fun remaining =>
  if length ≤ remaining.length then .ok (remaining.take length, remaining.drop length)
  else .error .bufferUnderflow

def remaining : BufferReader Nat := fun remaining => .ok (remaining.length, remaining)

def getByte : BufferReader UInt8 := fun remaining =>
  match remaining with
  | [] => .error .bufferUnderflow
  | byte :: rest => .ok (byte, rest)

def getBoolean : BufferReader Bool := do
  let byte ← getByte
  return byte != 0

def getInt : BufferReader Int := do
  let bytes ← take 4
  return wrap32 (ofBigEndian bytes)

def getLong : BufferReader (BitVec 64) := do
  let bytes ← take 8
  return BitVec.ofNat 64 (ofBigEndian bytes)

/-- The array is made before it is filled. -/
def getBytes (length : Int) : BufferReader Bytes :=
  if length < 0 then throw .negativeArraySize else take length.toNat

def getSlice (size : Int) : BufferReader Bytes := do
  let available ← remaining
  if size > available then throw .bufferUnderflow
  else if size < 0 then throw .illegalArgument
  else take size.toNat

def getIntLengthPrefixBytes : BufferReader Bytes := do
  let length ← getInt
  getBytes length

def getIntLengthPrefixSlice : BufferReader Bytes := do
  let size ← getInt
  getSlice size

/-- Malformed bytes of the string are replaced. -/
def getIntLengthPrefixString : BufferReader JString := do
  let slice ← getIntLengthPrefixSlice
  return decodeUtf8 slice

def getNullable (block : BufferReader α) : BufferReader (Option α) := do
  let isNull ← getBoolean
  if isNull then return none
  else
    let value ← block
    return some value

def getRemainingBytes : BufferReader Bytes := do
  let available ← remaining
  getBytes available

/-- A new position beyond the limit is not an underflow. -/
def addPosition (delta : Nat) : BufferReader Unit := fun remaining =>
  if delta ≤ remaining.length then .ok ((), remaining.drop delta) else .error .illegalArgument

/-- A reader of its own for a slice, whose bytes it need not use up. -/
def within (slice : Bytes) (reader : BufferReader α) : BufferReader α := fun remaining =>
  match reader slice with
  | .ok (value, _) => .ok (value, remaining)
  | .error e => .error e

end BufferReader

/-! ## What a reader takes -/

def Reads {α : Type} (reader : BufferReader α) (bytes : Bytes) (value : α) : Prop :=
  ∀ rest, reader (bytes ++ rest) = .ok (value, rest)

def Short {α : Type} (reader : BufferReader α) (bytes : Bytes) : Prop :=
  ∀ short, short <+: bytes → short ≠ bytes → ∃ e, reader short = .error e

variable {α β : Type}

theorem BufferReader.bind_ok {reader : BufferReader α} {next : α → BufferReader β}
    {input rest : Bytes} {value : α} (ran : reader input = .ok (value, rest)) :
    (reader >>= next) input = next value rest := by
  change (Except.bind (reader input) fun result => next result.1 result.2) = _
  rw [ran]
  rfl

theorem BufferReader.bind_error {reader : BufferReader α} {next : α → BufferReader β}
    {input : Bytes} {e : BufferError} (ran : reader input = .error e) :
    (reader >>= next) input = .error e := by
  change (Except.bind (reader input) fun result => next result.1 result.2) = _
  rw [ran]
  rfl

namespace Reads

open BufferReader

theorem pure (value : α) : Reads (Pure.pure value : BufferReader α) [] value := fun _ => rfl

theorem bind {reader : BufferReader α} {next : α → BufferReader β} {first second : Bytes}
    {value : α} {result : β} (taken : Reads reader first value)
    (later : Reads (next value) second result) :
    Reads (reader >>= next) (first ++ second) result := by
  intro rest
  rw [List.append_assoc, bind_ok (taken (second ++ rest))]
  exact later rest

/-- A first step that takes no bytes. -/
theorem bind_nil {reader : BufferReader α} {next : α → BufferReader β} {bytes : Bytes} {value : α}
    {result : β} (taken : Reads reader [] value) (later : Reads (next value) bytes result) :
    Reads (reader >>= next) bytes result :=
  taken.bind later

/-- A last step that takes no bytes. -/
theorem bind_last {reader : BufferReader α} {next : α → BufferReader β} {bytes : Bytes} {value : α}
    {result : β} (taken : Reads reader bytes value) (later : Reads (next value) [] result) :
    Reads (reader >>= next) bytes result := by
  have both := taken.bind later
  rwa [List.append_nil] at both

/-- A reader whose value is changed at the end. -/
theorem map {reader : BufferReader α} {bytes : Bytes} {value : α} (taken : Reads reader bytes value)
    (result : α → β) : Reads (reader >>= fun value => Pure.pure (result value)) bytes
      (result value) := by
  intro rest
  rw [bind_ok (taken rest)]
  rfl

theorem require {condition : Bool} (holds : condition = true) :
    Reads (BufferReader.require condition) [] () := by
  rw [BufferReader.require, if_pos holds]
  exact pure ()

theorem ofOption {found : Option α} {value : α} (isSome : found = some value) :
    Reads (BufferReader.ofOption found) [] value := by
  rw [isSome]
  exact pure value

theorem take (bytes : Bytes) : Reads (BufferReader.take bytes.length) bytes bytes := by
  intro rest
  have enough : bytes.length ≤ (bytes ++ rest).length := by simp
  rw [BufferReader.take, if_pos enough, List.take_left, List.drop_left]

theorem getByte (byte : UInt8) : Reads BufferReader.getByte [byte] byte := fun _ => rfl

theorem getBoolean (value : Bool) :
    Reads BufferReader.getBoolean [if value then 1 else 0] value := by
  intro rest
  cases value <;> rfl

theorem takeField {bytes : Bytes} {length : Nat} (size : bytes.length = length) :
    Reads (BufferReader.take length) bytes bytes :=
  size ▸ take bytes

theorem getInt {value : Nat} (fits : value < 2 ^ 31) :
    Reads BufferReader.getInt (writeInt value) value := by
  have taken := (takeField (bigEndian_length 4 value)).map
    fun bytes => wrap32 (ofBigEndian bytes)
  rw [ofBigEndian_bigEndian_of_lt 4 value (by omega),
    wrap32_of_range (by omega) (by omega)] at taken
  exact taken

theorem getLong (value : BitVec 64) :
    Reads BufferReader.getLong (bigEndian 8 value.toNat) value := by
  have taken := (takeField (bigEndian_length 8 value.toNat)).map
    fun bytes => BitVec.ofNat 64 (ofBigEndian bytes)
  rw [ofBigEndian_bigEndian_of_lt 8 value.toNat (by have := value.isLt; omega), BitVec.ofNat_toNat,
    BitVec.setWidth_eq] at taken
  exact taken

theorem getBytes (bytes : Bytes) : Reads (BufferReader.getBytes bytes.length) bytes bytes := by
  have nonnegative : ¬ (bytes.length : Int) < 0 := by omega
  rw [BufferReader.getBytes, if_neg nonnegative, Int.toNat_natCast]
  exact take bytes

theorem getSlice (bytes : Bytes) : Reads (BufferReader.getSlice bytes.length) bytes bytes := by
  intro rest
  have enough : ¬ (bytes.length : Int) > ((bytes ++ rest).length : Nat) := by simp
  have nonnegative : ¬ (bytes.length : Int) < 0 := by omega
  have available : BufferReader.remaining (bytes ++ rest) =
      .ok ((bytes ++ rest).length, bytes ++ rest) := rfl
  rw [BufferReader.getSlice, bind_ok available, if_neg enough, if_neg nonnegative,
    Int.toNat_natCast]
  exact take bytes rest

theorem getIntLengthPrefixBytes {bytes : Bytes} (fits : bytes.length < 2 ^ 31) :
    Reads BufferReader.getIntLengthPrefixBytes (writeIntLengthPrefixBytes bytes) bytes :=
  (getInt fits).bind (getBytes bytes)

theorem getIntLengthPrefixSlice {bytes : Bytes} (fits : bytes.length < 2 ^ 31) :
    Reads BufferReader.getIntLengthPrefixSlice (writeIntLengthPrefixBytes bytes) bytes :=
  (getInt fits).bind (getSlice bytes)

theorem getIntLengthPrefixString {bytes : Bytes} (fits : bytes.length < 2 ^ 31) :
    Reads BufferReader.getIntLengthPrefixString (writeIntLengthPrefixBytes bytes)
      (decodeUtf8 bytes) :=
  (getIntLengthPrefixSlice fits).map decodeUtf8

theorem within {reader : BufferReader α} {slice rest : Bytes} {value : α}
    (ran : reader slice = .ok (value, rest)) :
    Reads (BufferReader.within slice reader) [] value := by
  intro remaining
  rw [BufferReader.within, ran]
  rfl

end Reads

/-! ## Truncated input -/

namespace Short

open BufferReader

theorem bind {reader : BufferReader α} {next : α → BufferReader β} {first second : Bytes}
    {value : α} (truncated : Short reader first) (taken : Reads reader first value)
    (later : Short (next value) second) : Short (reader >>= next) (first ++ second) := by
  intro short isPrefix proper
  rcases List.prefix_or_prefix_of_prefix isPrefix (List.prefix_append first second) with
    within | beyond
  · by_cases whole : short = first
    · have missing : second ≠ [] := by
        rintro rfl
        exact proper (by rw [whole, List.append_nil])
      obtain ⟨e, threw⟩ := later [] List.nil_prefix (Ne.symm missing)
      have all := taken []
      rw [List.append_nil, ← whole] at all
      exact ⟨e, by rw [bind_ok all, threw]⟩
    · obtain ⟨e, threw⟩ := truncated short within whole
      exact ⟨e, bind_error threw⟩
  · obtain ⟨rest, rfl⟩ := beyond
    have inside := (List.prefix_append_right_inj first).mp isPrefix
    obtain ⟨e, threw⟩ := later rest inside (fun same => proper (by rw [same]))
    exact ⟨e, by rw [bind_ok (taken rest), threw]⟩

/-- A first step that takes no bytes. -/
theorem bind_nil {reader : BufferReader α} {next : α → BufferReader β} {bytes : Bytes} {value : α}
    (taken : Reads reader [] value) (later : Short (next value) bytes) :
    Short (reader >>= next) bytes := by
  intro short isPrefix proper
  obtain ⟨e, threw⟩ := later short isPrefix proper
  have all := taken short
  rw [List.nil_append] at all
  exact ⟨e, by rw [bind_ok all, threw]⟩

/-- What follows the last bytes does not matter. -/
theorem bind_last {reader : BufferReader α} (next : α → BufferReader β) {bytes : Bytes}
    (truncated : Short reader bytes) : Short (reader >>= next) bytes := by
  intro short isPrefix proper
  obtain ⟨e, threw⟩ := truncated short isPrefix proper
  exact ⟨e, bind_error threw⟩

theorem take {bytes : Bytes} {length : Nat} (size : bytes.length = length) :
    Short (BufferReader.take length) bytes := by
  intro short isPrefix proper
  have shorter : ¬ length ≤ short.length := by
    intro long
    exact proper (isPrefix.eq_of_length_le (by omega))
  exact ⟨.bufferUnderflow, by rw [BufferReader.take, if_neg shorter]⟩

theorem getByte (byte : UInt8) : Short BufferReader.getByte [byte] := by
  intro short isPrefix proper
  have empty : short = [] := by
    by_contra some_byte
    have length := isPrefix.length_le
    have positive := List.length_pos_iff.mpr some_byte
    exact proper (isPrefix.eq_of_length_le positive)
  exact ⟨.bufferUnderflow, by rw [empty]; rfl⟩

theorem getInt (value : Nat) : Short BufferReader.getInt (writeInt value) :=
  (take (bigEndian_length 4 value)).bind_last _

theorem getBytes (bytes : Bytes) : Short (BufferReader.getBytes bytes.length) bytes := by
  have nonnegative : ¬ (bytes.length : Int) < 0 := by omega
  rw [BufferReader.getBytes, if_neg nonnegative, Int.toNat_natCast]
  exact take rfl

theorem getSlice (bytes : Bytes) : Short (BufferReader.getSlice bytes.length) bytes := by
  intro short isPrefix proper
  have shorter : (bytes.length : Int) > short.length := by
    by_contra long
    exact proper (isPrefix.eq_of_length_le (by omega))
  have available : BufferReader.remaining short = .ok (short.length, short) := rfl
  refine ⟨.bufferUnderflow, ?_⟩
  rw [BufferReader.getSlice, bind_ok available, if_pos shorter]
  rfl

theorem getIntLengthPrefixBytes {bytes : Bytes} (fits : bytes.length < 2 ^ 31) :
    Short BufferReader.getIntLengthPrefixBytes (writeIntLengthPrefixBytes bytes) :=
  (getInt bytes.length).bind (.getInt fits) (getBytes bytes)

theorem getIntLengthPrefixSlice {bytes : Bytes} (fits : bytes.length < 2 ^ 31) :
    Short BufferReader.getIntLengthPrefixSlice (writeIntLengthPrefixBytes bytes) :=
  (getInt bytes.length).bind (.getInt fits) (getSlice bytes)

end Short

/-! ## Readers that may reject what they take -/

/-- The reader takes these bytes, unless it throws. -/
def Takes {α : Type} (reader : BufferReader α) (bytes : Bytes) : Prop :=
  ∀ rest, (∃ value, reader (bytes ++ rest) = .ok (value, rest)) ∨
    ∃ e, reader (bytes ++ rest) = .error e

namespace Takes

open BufferReader

theorem pure (value : α) : Takes (Pure.pure value : BufferReader α) [] :=
  fun _ => Or.inl ⟨value, rfl⟩

theorem bind {reader : BufferReader α} {next : α → BufferReader β} {first second : Bytes}
    {value : α} (taken : Reads reader first value) (later : Takes (next value) second) :
    Takes (reader >>= next) (first ++ second) := by
  intro rest
  rw [List.append_assoc, bind_ok (taken (second ++ rest))]
  exact later rest

theorem bind_last {reader : BufferReader α} {next : α → BufferReader β} {bytes : Bytes}
    {value : α} (taken : Reads reader bytes value) (later : Takes (next value) []) :
    Takes (reader >>= next) bytes := by
  have both := bind taken later
  rwa [List.append_nil] at both

theorem ofOption_bind {found : Option α} {next : α → BufferReader β} {bytes : Bytes}
    (later : ∀ value, Takes (next value) bytes) :
    Takes (BufferReader.ofOption found >>= next) bytes := by
  intro rest
  cases found with
  | none => exact Or.inr ⟨.decoding, rfl⟩
  | some value => exact later value rest

end Takes

end Conclave.Lib
