import ConclaveFormal.Lib.Struct

/-!
# Views of shared bytes

A byte buffer is a window on an array that it may share with others.  The array is passed along, and
a view has the window, the order in which it takes the bytes of a number, and whether it may write.
-/

set_option autoImplicit false

namespace Conclave.Lib

inductive ByteOrder where
  | bigEndian
  | littleEndian
  deriving DecidableEq, Repr

namespace ByteOrder

def encode (order : ByteOrder) (width value : Nat) : Bytes :=
  match order with
  | .bigEndian => Lib.bigEndian width value
  | .littleEndian => (Lib.bigEndian width value).reverse

def decode (order : ByteOrder) (bytes : Bytes) : Nat :=
  match order with
  | .bigEndian => ofBigEndian bytes
  | .littleEndian => ofLittleEndian bytes

@[simp] theorem encode_length (order : ByteOrder) (width value : Nat) :
    (order.encode width value).length = width := by
  cases order with
  | bigEndian => exact bigEndian_length width value
  | littleEndian => rw [encode, List.length_reverse, bigEndian_length]

theorem decode_encode (order : ByteOrder) {width value : Nat} (fits : value < 256 ^ width) :
    order.decode (order.encode width value) = value := by
  cases order with
  | bigEndian => exact ofBigEndian_bigEndian_of_lt width value fits
  | littleEndian =>
      rw [decode, encode, ofLittleEndian, List.reverse_reverse]
      exact ofBigEndian_bigEndian_of_lt width value fits

theorem decode_lt (order : ByteOrder) (bytes : Bytes) :
    order.decode bytes < 256 ^ bytes.length := by
  cases order with
  | bigEndian => exact ofBigEndian_lt bytes
  | littleEndian =>
      rw [decode, ofLittleEndian, ← List.length_reverse]
      exact ofBigEndian_lt bytes.reverse

end ByteOrder

/-! ## What a reader takes when it succeeds -/

namespace BufferReader

variable {α β : Type}

theorem bind_eq_ok_iff {reader : BufferReader α} {next : α → BufferReader β} {input rest : Bytes}
    {result : β} :
    (reader >>= next) input = .ok (result, rest) ↔
      ∃ value middle, reader input = .ok (value, middle) ∧
        next value middle = .ok (result, rest) := by
  cases ran : reader input with
  | error e =>
      rw [bind_error ran]
      constructor
      · intro returned
        cases returned
      · rintro ⟨value, middle, returned, -⟩
        cases returned
  | ok taken =>
      obtain ⟨value, middle⟩ := taken
      rw [bind_ok ran]
      constructor
      · intro returned
        exact ⟨value, middle, rfl, returned⟩
      · rintro ⟨_, _, same, returned⟩
        cases same
        exact returned

theorem take_eq_ok_iff {length : Nat} {input taken rest : Bytes} :
    take length input = .ok (taken, rest) ↔ taken.length = length ∧ input = taken ++ rest := by
  rw [take]
  constructor
  · intro ran
    split_ifs at ran with enough
    cases ran
    exact ⟨List.length_take_of_le enough, (List.take_append_drop length input).symm⟩
  · rintro ⟨rfl, rfl⟩
    have enough : taken.length ≤ (taken ++ rest).length := by simp
    rw [if_pos enough, List.take_left, List.drop_left]

theorem addPosition_eq_ok_iff {delta : Nat} {input rest : Bytes} :
    addPosition delta input = .ok ((), rest) ↔
      ∃ skipped : Bytes, skipped.length = delta ∧ input = skipped ++ rest := by
  rw [addPosition]
  constructor
  · intro ran
    split_ifs at ran with enough
    cases ran
    exact ⟨input.take delta, List.length_take_of_le enough,
      (List.take_append_drop delta input).symm⟩
  · rintro ⟨skipped, rfl, rfl⟩
    have enough : skipped.length ≤ (skipped ++ rest).length := by simp
    rw [if_pos enough, List.drop_left]

/-- Two moves are one. -/
theorem addPosition_add (first second : Nat) :
    addPosition (first + second) = (addPosition first >>= fun _ => addPosition second) := by
  funext remaining
  rcases Nat.lt_or_ge remaining.length first with short | enough
  · have failed : addPosition first remaining = .error .illegalArgument := by
      rw [addPosition, if_neg (by omega)]
    rw [bind_error failed, addPosition, if_neg (by omega)]
  · have moved : addPosition first remaining = .ok ((), remaining.drop first) := by
      rw [addPosition, if_pos enough]
    rw [bind_ok moved, addPosition, addPosition, List.length_drop, List.drop_drop]
    by_cases room : first + second ≤ remaining.length
    · rw [if_pos room, if_pos (by omega)]
    · rw [if_neg room, if_neg (by omega)]

theorem addPosition_zero : addPosition 0 = pure () := by
  funext remaining
  rw [addPosition, if_pos (Nat.zero_le _)]
  rfl

end BufferReader

/-! ## Changing bytes of the array -/

def splice (memory : Bytes) (position : Nat) (bytes : Bytes) : Bytes :=
  memory.take position ++ bytes ++ memory.drop (position + bytes.length)

section Splice

variable {memory bytes : Bytes} {position : Nat}

theorem splice_length (fits : position + bytes.length ≤ memory.length) :
    (splice memory position bytes).length = memory.length := by
  rw [splice, List.length_append, List.length_append, List.length_take, List.length_drop]
  omega

theorem getElem?_splice (fits : position + bytes.length ≤ memory.length) (index : Nat) :
    (splice memory position bytes)[index]? =
      if position ≤ index ∧ index < position + bytes.length then bytes[index - position]?
      else memory[index]? := by
  have before : (memory.take position).length = position := List.length_take_of_le (by omega)
  rw [splice, List.append_assoc]
  rcases lt_or_ge index position with below | notBelow
  · rw [List.getElem?_append_left (by omega), List.getElem?_take_of_lt below,
      if_neg (by omega)]
  · rw [List.getElem?_append_right (by omega), before]
    rcases lt_or_ge index (position + bytes.length) with inside | behind
    · rw [List.getElem?_append_left (by omega), if_pos ⟨notBelow, inside⟩]
    · rw [List.getElem?_append_right (by omega), List.getElem?_drop, if_neg (by omega)]
      congr 1
      omega

end Splice

/-! ## Views -/

inductive ViewError where
  | reading (e : BufferError)
  | indexOutOfBounds
  | bufferOverflow
  | readOnlyBuffer
  | unsupportedOperation
  deriving DecidableEq, Repr

/-- The position, the limit and the capacity are counted from the start of the array. -/
structure View where
  position : Nat
  limit : Nat
  capacity : Nat
  order : ByteOrder
  isReadOnly : Bool
  ordered : position ≤ limit
  within : limit ≤ capacity
  deriving DecidableEq

namespace View

/-- The array has room for the view. -/
def Fits (view : View) (memory : Bytes) : Prop := view.capacity ≤ memory.length

def remaining (view : View) (memory : Bytes) : Bytes :=
  (memory.take view.limit).drop view.position

/-- A new view of the whole array. -/
def wrap (bytes : Bytes) : View where
  position := 0
  limit := bytes.length
  capacity := bytes.length
  order := .bigEndian
  isReadOnly := false
  ordered := Nat.zero_le _
  within := le_rfl

def withOrder (view : View) (order : ByteOrder) : View := { view with order := order }

/-- Neither a duplicate nor a slice takes over the order. -/
def duplicate (view : View) : View := { view with order := .bigEndian }

def slice (view : View) : View :=
  { view with
    capacity := view.limit
    order := .bigEndian
    within := le_rfl }

def asReadOnlyBuffer (view : View) : View :=
  { view with
    order := .bigEndian
    isReadOnly := true }

/-- A position beyond the new limit is set to it. -/
def setLimit (view : View) (limit : Nat) : Except ViewError View :=
  if within : limit ≤ view.capacity then
    .ok { view with
      position := min view.position limit
      limit := limit
      ordered := min_le_right _ _
      within := within }
  else .error (.reading .illegalArgument)

/-- What a relative operation returns, and the view with its position behind what it took. -/
def advance {α : Type} (view : View) (memory : Bytes) (reader : ByteOrder → BufferReader α) :
    Except BufferError (α × View) :=
  match reader view.order (view.remaining memory) with
  | .error e => .error e
  | .ok (value, rest) =>
      .ok (value, { view with
        position := view.limit - rest.length
        ordered := Nat.sub_le _ _ })

/-- The slice of the next bytes, and the view behind them. -/
def getSlice (view : View) (size : Nat) : Except ViewError (View × View) :=
  if enough : view.position + size ≤ view.limit then
    .ok ({ view.slice with
        limit := view.position + size
        ordered := Nat.le_add_right _ _
        within := enough },
      { view with
        position := view.position + size
        ordered := enough })
  else .error (.reading .bufferUnderflow)

/-- The array after the bytes have been written at the position. -/
def put (view : View) (memory bytes : Bytes) : Except ViewError Bytes :=
  if view.isReadOnly then .error .readOnlyBuffer
  else if view.position + bytes.length ≤ view.limit then
    .ok (splice memory view.position bytes)
  else .error .bufferOverflow

variable {view : View} {memory bytes : Bytes}

theorem remaining_length (fits : view.Fits memory) :
    (view.remaining memory).length = view.limit - view.position := by
  have within := view.within
  have room : view.capacity ≤ memory.length := fits
  rw [remaining, List.length_drop, List.length_take_of_le (by omega)]

theorem getElem?_remaining (index : Nat) :
    (view.remaining memory)[index]? =
      if view.position + index < view.limit then memory[view.position + index]? else none := by
  rw [remaining, List.getElem?_drop, List.getElem?_take]

/-- A view of the next bytes. -/
theorem remaining_of_first {inner : View} {first rest : Bytes} (fits : view.Fits memory)
    (holds : view.remaining memory = first ++ rest) (position : inner.position = view.position)
    (limit : inner.limit = view.position + first.length) : inner.remaining memory = first := by
  have length := congrArg List.length holds
  rw [remaining_length fits, List.length_append] at length
  have ordered := view.ordered
  have taken : (view.remaining memory).take first.length = inner.remaining memory := by
    rw [remaining, remaining, List.take_drop, List.take_take, position, limit]
    congr 2
    omega
  rw [← taken, holds, List.take_left]

/-- A view behind the next bytes. -/
theorem remaining_of_rest {inner : View} {first rest : Bytes}
    (holds : view.remaining memory = first ++ rest)
    (position : inner.position = view.position + first.length) (limit : inner.limit = view.limit) :
    inner.remaining memory = rest := by
  have dropped : (view.remaining memory).drop first.length = inner.remaining memory := by
    rw [remaining, remaining, List.drop_drop, position, limit]
  rw [← dropped, holds, List.drop_left]

/-- An operation that takes the first bytes moves the position behind them. -/
theorem advance_of_reads {α : Type} (reader : ByteOrder → BufferReader α) {value : α}
    {first rest : Bytes} (fits : view.Fits memory) (holds : view.remaining memory = first ++ rest)
    (ran : reader view.order (first ++ rest) = .ok (value, rest)) :
    ∃ moved, view.advance memory reader = .ok (value, moved) ∧
      moved.position = view.position + first.length ∧ moved.limit = view.limit ∧
      moved.capacity = view.capacity ∧ moved.order = view.order ∧
      moved.isReadOnly = view.isReadOnly := by
  have length := congrArg List.length holds
  rw [remaining_length fits, List.length_append] at length
  have ordered := view.ordered
  rw [advance, holds, ran]
  refine ⟨_, rfl, ?_, rfl, rfl, rfl, rfl⟩
  change view.limit - rest.length = view.position + first.length
  omega

theorem setLimit_eq {length : Nat} (room : view.position + length ≤ view.capacity) :
    ∃ limited, view.setLimit (view.position + length) = .ok limited ∧
      limited.position = view.position ∧ limited.limit = view.position + length ∧
      limited.capacity = view.capacity ∧ limited.order = view.order ∧
      limited.isReadOnly = view.isReadOnly := by
  rw [setLimit, dif_pos room]
  exact ⟨_, rfl, min_eq_left (Nat.le_add_right _ _), rfl, rfl, rfl, rfl⟩

theorem getSlice_of_first {first rest : Bytes} (fits : view.Fits memory)
    (holds : view.remaining memory = first ++ rest) :
    ∃ inner behind, view.getSlice first.length = .ok (inner, behind) ∧ inner.Fits memory ∧
      inner.remaining memory = first ∧ behind.remaining memory = rest := by
  have length := congrArg List.length holds
  rw [remaining_length fits, List.length_append] at length
  have ordered := view.ordered
  have room : view.position + first.length ≤ view.limit := by omega
  rw [getSlice, dif_pos room]
  refine ⟨_, _, rfl, ?_, ?_, ?_⟩
  · exact view.within.trans fits
  · exact remaining_of_first fits holds rfl rfl
  · exact remaining_of_rest holds rfl rfl

/-! ## Writing -/

theorem put_eq (writable : view.isReadOnly = false)
    (room : view.position + bytes.length ≤ view.limit) :
    view.put memory bytes = .ok (splice memory view.position bytes) := by
  rw [put, writable, if_neg Bool.false_ne_true, if_pos room]

theorem put_eq_ok {after : Bytes} (ran : view.put memory bytes = .ok after) :
    view.isReadOnly = false ∧ view.position + bytes.length ≤ view.limit ∧
      after = splice memory view.position bytes := by
  rw [put] at ran
  split_ifs at ran with readOnly room
  cases ran
  exact ⟨eq_false_of_ne_true readOnly, room, rfl⟩

/-- The view that has been written to. -/
theorem remaining_splice_same (inside : view.position + bytes.length ≤ memory.length)
    (limit : view.limit = view.position + bytes.length) :
    view.remaining (splice memory view.position bytes) = bytes := by
  apply List.ext_getElem?
  intro index
  rw [getElem?_remaining, getElem?_splice inside, limit, Nat.add_sub_cancel_left]
  rcases lt_or_ge index bytes.length with below | behind
  · rw [if_pos (by omega), if_pos ⟨by omega, by omega⟩]
  · rw [if_neg (by omega), List.getElem?_eq_none behind]

/-- A view that does not overlap with the bytes written. -/
theorem remaining_splice_apart {position : Nat}
    (inside : position + bytes.length ≤ memory.length)
    (apart : view.limit ≤ position ∨ position + bytes.length ≤ view.position) :
    view.remaining (splice memory position bytes) = view.remaining memory := by
  apply List.ext_getElem?
  intro index
  rw [getElem?_remaining, getElem?_remaining, getElem?_splice inside]
  by_cases below : view.position + index < view.limit
  · rw [if_pos below, if_pos below, if_neg (by omega)]
  · rw [if_neg below, if_neg below]

end View

end Conclave.Lib
