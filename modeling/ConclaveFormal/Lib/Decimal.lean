import ConclaveFormal.Lib.DataStream
import Mathlib.Data.Nat.Digits.Defs
import Mathlib.Tactic.IntervalCases

/-!
# Decimal numbers and ISO-8601 periods

The texts of 32-bit integers and of periods of years, months and days, as the
virtual machine's library writes and reads them.  What is written is read back.
-/

set_option autoImplicit false

namespace Conclave.Lib

/-! ## Integers -/

def minus : UInt16 := 0x2D

def plus : UInt16 := 0x2B

def digitUnit (digit : Nat) : UInt16 := UInt16.ofNat (0x30 + digit)

def asciiDigit (unit : UInt16) : Option Nat :=
  if 0x30 ≤ unit.toNat ∧ unit.toNat ≤ 0x39 then some (unit.toNat - 0x30) else none

def natText (value : Nat) : JString :=
  if value = 0 then [digitUnit 0] else (Nat.digits 10 value).reverse.map digitUnit

def intText (value : Int) : JString :=
  if value < 0 then minus :: natText value.natAbs else natText value.natAbs

def IsInt32 (value : Int) : Prop := -2 ^ 31 ≤ value ∧ value < 2 ^ 31

instance (value : Int) : Decidable (IsInt32 value) := inferInstanceAs (Decidable (_ ∧ _))

def digitsValue (digits : List Nat) : Nat :=
  digits.foldl (fun value digit => value * 10 + digit) 0

/-- The digits behind the sign. -/
def parseDigits (digit : UInt16 → Option Nat) (sign : Int) (text : JString) : Option Int :=
  if text.isEmpty then none
  else
    (text.mapM digit).bind fun digits =>
      if IsInt32 (sign * digitsValue digits) then some (sign * digitsValue digits) else none

/-- `Integer.parseInt`; `digit` is `Character.digit` in base ten. -/
def parseInt (digit : UInt16 → Option Nat) : JString → Option Int
  | [] => none
  | first :: rest =>
      if first = minus then parseDigits digit (-1) rest
      else if first = plus then parseDigits digit 1 rest
      else parseDigits digit 1 (first :: rest)

/-- A reading of digits that knows the ASCII ones. -/
def ReadsAscii (digit : UInt16 → Option Nat) : Prop :=
  ∀ value, value < 10 → digit (digitUnit value) = some value

theorem asciiDigit_readsAscii : ReadsAscii asciiDigit := by
  intro value small
  interval_cases value <;> rfl

theorem digitsValue_reverse (digits : List Nat) :
    digitsValue digits.reverse = Nat.ofDigits 10 digits := by
  rw [digitsValue, List.foldl_reverse, Nat.ofDigits_eq_foldr]
  congr 1
  funext digit value
  simp
  ring

theorem natText_digits (value : Nat) :
    ∃ digits : List Nat, natText value = digits.map digitUnit ∧ digits ≠ [] ∧
      (∀ digit ∈ digits, digit < 10) ∧ digitsValue digits = value := by
  by_cases zero : value = 0
  · subst zero
    exact ⟨[0], rfl, by simp, by simp, rfl⟩
  · refine ⟨(Nat.digits 10 value).reverse, by rw [natText, if_neg zero], ?_, ?_, ?_⟩
    · rw [ne_eq, List.reverse_eq_nil_iff]
      exact Nat.digits_ne_nil_iff_ne_zero.mpr zero
    · intro digit member
      exact Nat.digits_lt_base (by decide) (List.mem_reverse.mp member)
    · rw [digitsValue_reverse, Nat.ofDigits_digits]

theorem mapM_digits {digit : UInt16 → Option Nat} (reads : ReadsAscii digit) {digits : List Nat}
    (small : ∀ value ∈ digits, value < 10) : (digits.map digitUnit).mapM digit = some digits := by
  induction digits with
  | nil => rfl
  | cons value digits ih =>
      have later := ih fun other member => small other (List.mem_cons_of_mem value member)
      rw [List.map_cons, List.mapM_cons, reads value (small value List.mem_cons_self), later]
      rfl

theorem parseDigits_natText {digit : UInt16 → Option Nat} (reads : ReadsAscii digit) (sign : Int)
    (value : Nat) (fits : IsInt32 (sign * value)) :
    parseDigits digit sign (natText value) = some (sign * value) := by
  obtain ⟨digits, text, nonempty, small, total⟩ := natText_digits value
  have notEmpty : (digits.map digitUnit).isEmpty = false := by simp [nonempty]
  rw [parseDigits, text, notEmpty, mapM_digits reads small]
  simp [total, fits]

theorem digitUnit_ne_sign {value : Nat} (small : value < 10) :
    digitUnit value ≠ minus ∧ digitUnit value ≠ plus := by
  interval_cases value <;> decide

theorem natText_head (value : Nat) :
    ∃ first rest, natText value = first :: rest ∧ first ≠ minus ∧ first ≠ plus := by
  obtain ⟨digits, text, nonempty, small, _⟩ := natText_digits value
  cases digits with
  | nil => exact absurd rfl nonempty
  | cons digit digits =>
      have different := digitUnit_ne_sign (small digit List.mem_cons_self)
      exact ⟨_, _, text, different.1, different.2⟩

theorem parseInt_intText {digit : UInt16 → Option Nat} (reads : ReadsAscii digit) {value : Int}
    (fits : IsInt32 value) : parseInt digit (intText value) = some value := by
  by_cases negative : value < 0
  · have same : -1 * (value.natAbs : Int) = value := by omega
    rw [intText, if_pos negative, parseInt, if_pos rfl, parseDigits_natText reads]
    · rw [same]
    · rw [same]
      exact fits
  · have same : 1 * (value.natAbs : Int) = value := by omega
    obtain ⟨first, rest, text, notMinus, notPlus⟩ := natText_head value.natAbs
    rw [intText, if_neg negative, text, parseInt, if_neg notMinus, if_neg notPlus, ← text,
      parseDigits_natText reads]
    · rw [same]
    · rw [same]
      exact fits

/-! ## Periods -/

structure Period where
  years : Int
  months : Int
  days : Int
  deriving DecidableEq, Repr

namespace Period

/-- The fields of a period are 32-bit integers. -/
def InRange (period : Period) : Prop :=
  IsInt32 period.years ∧ IsInt32 period.months ∧ IsInt32 period.days

instance (period : Period) : Decidable period.InRange := inferInstanceAs (Decidable (_ ∧ _ ∧ _))

def fieldText (value : Int) (unit : UInt16) : JString :=
  if value = 0 then [] else intText value ++ [unit]

def text (period : Period) : JString :=
  if period = ⟨0, 0, 0⟩ then [0x50, 0x30, 0x44]
  else
    0x50 :: (fieldText period.years 0x59 ++ fieldText period.months 0x4D ++
      fieldText period.days 0x44)

def isDigitUnit (unit : UInt16) : Bool := (asciiDigit unit).isSome

/-- A letter of the format in upper or lower case. -/
def isLetter (letter unit : UInt16) : Bool := unit == letter || unit == letter + 0x20

/-- `(?:([-+]?[0-9]+)X)?` of the pattern: the number in front of the letter, if it is there. -/
def field (letter : UInt16) (input : JString) : Option JString × JString :=
  let (sign, rest) :=
    match input with
    | first :: rest =>
        if first = minus ∨ first = plus then ([first], rest) else ([], first :: rest)
    | [] => ([], [])
  let digits := rest.takeWhile isDigitUnit
  match rest.dropWhile isDigitUnit with
  | unit :: tail =>
      if !digits.isEmpty && isLetter letter unit then (some (sign ++ digits), tail)
      else (none, input)
  | [] => (none, input)

/-- Exact arithmetic: what does not fit is an error. -/
def exactInt (value : Int) : Option Int := if IsInt32 value then some value else none

def number (negate : Int) : Option JString → Option Int
  | none => some 0
  | some text => (parseInt asciiDigit text).bind fun value => exactInt (value * negate)

def parseFields (negate : Int) (input : JString) : Option Period :=
  let (years, input) := field 0x59 input
  let (months, input) := field 0x4D input
  let (weeks, input) := field 0x57 input
  let (days, input) := field 0x44 input
  if input.isEmpty && (years.isSome || months.isSome || weeks.isSome || days.isSome) then do
    let years ← number negate years
    let months ← number negate months
    let weeks ← number negate weeks
    let days ← number negate days
    let weekDays ← exactInt (weeks * 7)
    let days ← exactInt (days + weekDays)
    return ⟨years, months, days⟩
  else none

def parse (input : JString) : Option Period :=
  let (negate, input) :=
    match input with
    | first :: rest =>
        if first = minus then ((-1 : Int), rest)
        else if first = plus then (1, rest)
        else (1, first :: rest)
    | [] => (1, [])
  match input with
  | first :: rest => if isLetter 0x50 first then parseFields negate rest else none
  | [] => none

/-! ### What is written is read back -/

theorem isDigitUnit_digitUnit {value : Nat} (small : value < 10) :
    isDigitUnit (digitUnit value) = true := by
  rw [isDigitUnit, asciiDigit_readsAscii value small]
  rfl

theorem natText_isDigit (value : Nat) : ∀ unit ∈ natText value, isDigitUnit unit = true := by
  obtain ⟨digits, text, _, small, _⟩ := natText_digits value
  intro unit member
  rw [text] at member
  obtain ⟨digit, inDigits, rfl⟩ := List.mem_map.mp member
  exact isDigitUnit_digitUnit (small digit inDigits)

/-- A number in front of a unit that is no digit. -/
theorem field_intText (letter : UInt16) (value : Int) {unit : UInt16}
    (stop : isDigitUnit unit = false) (rest : JString) :
    field letter (intText value ++ unit :: rest) =
      if isLetter letter unit then (some (intText value), rest)
      else (none, intText value ++ unit :: rest) := by
  obtain ⟨first, tail, text, notMinus, notPlus⟩ := natText_head value.natAbs
  have digits := natText_isDigit value.natAbs
  have notEmpty : (natText value.natAbs).isEmpty = false := by rw [text]; rfl
  have taken : (natText value.natAbs ++ unit :: rest).takeWhile isDigitUnit =
      natText value.natAbs := by
    rw [List.takeWhile_append_of_pos digits]
    simp [List.takeWhile, stop]
  have dropped : (natText value.natAbs ++ unit :: rest).dropWhile isDigitUnit = unit :: rest := by
    rw [List.dropWhile_append_of_pos digits]
    simp [List.dropWhile, stop]
  by_cases negative : value < 0
  · rw [intText, if_pos negative, List.cons_append, field]
    simp only [true_or, if_true, taken, dropped, notEmpty, Bool.not_false, Bool.true_and,
      List.singleton_append]
  · have split : natText value.natAbs ++ unit :: rest = first :: (tail ++ unit :: rest) := by
      rw [text, List.cons_append]
    rw [split] at taken dropped
    rw [intText, if_neg negative, split, field]
    simp only [notMinus, notPlus, or_self, if_false, taken, dropped, notEmpty, Bool.not_false,
      Bool.true_and, List.nil_append]

theorem field_nil (letter : UInt16) : field letter [] = (none, []) := rfl

/-- The field of a unit is read back, and that of another unit is left alone. -/
theorem field_fieldText (letter : UInt16) (value : Int) (notDigit : isDigitUnit letter = false)
    {rest : JString} (absent : field letter rest = (none, rest)) :
    field letter (fieldText value letter ++ rest) =
      (if value = 0 then none else some (intText value), rest) := by
  by_cases zero : value = 0
  · simp only [fieldText, zero, if_true, List.nil_append, absent]
  · have same : isLetter letter letter = true := by simp [isLetter]
    simp only [fieldText, zero, if_false, List.append_assoc, List.singleton_append]
    rw [field_intText letter value notDigit, if_pos same]

theorem field_other (letter unit : UInt16) (value : Int) (notDigit : isDigitUnit unit = false)
    (different : isLetter letter unit = false) {rest : JString}
    (absent : field letter rest = (none, rest)) :
    field letter (fieldText value unit ++ rest) = (none, fieldText value unit ++ rest) := by
  by_cases zero : value = 0
  · simp only [fieldText, zero, if_true, List.nil_append, absent]
  · simp only [fieldText, zero, if_false, List.append_assoc, List.singleton_append]
    rw [field_intText letter value notDigit, different]
    rfl

theorem number_intText {value : Int} (fits : IsInt32 value) :
    number 1 (if value = 0 then none else some (intText value)) = some value := by
  by_cases zero : value = 0
  · rw [if_pos zero, zero]
    rfl
  · rw [if_neg zero, number, parseInt_intText asciiDigit_readsAscii fits]
    simp [exactInt, fits]

theorem parse_text {period : Period} (inRange : period.InRange) :
    parse period.text = some period := by
  obtain ⟨years, months, days⟩ := period
  obtain ⟨yearsFit, monthsFit, daysFit⟩ := inRange
  by_cases zero : (⟨years, months, days⟩ : Period) = ⟨0, 0, 0⟩
  · rw [zero]
    decide
  · have days_other : ∀ letter, isLetter letter 0x44 = false →
        field letter (fieldText days 0x44) = (none, fieldText days 0x44) := by
      intro letter different
      have left := field_other letter 0x44 days rfl different (field_nil letter)
      rwa [List.append_nil] at left
    have months_other := field_other 0x59 0x4D months rfl rfl (days_other 0x59 rfl)
    have readYears := field_fieldText 0x59 years rfl months_other
    have readMonths := field_fieldText 0x4D months rfl (days_other 0x4D rfl)
    have readDays := field_fieldText 0x44 days rfl (field_nil 0x44)
    rw [List.append_nil] at readDays
    have some_field : ((if years = 0 then none else some (intText years)).isSome ||
        (if months = 0 then none else some (intText months)).isSome ||
        (none : Option JString).isSome ||
        (if days = 0 then none else some (intText days)).isSome) = true := by
      by_cases noYears : years = 0
      · by_cases noMonths : months = 0
        · by_cases noDays : days = 0
          · exact absurd (by rw [noYears, noMonths, noDays]) zero
          · simp [noDays]
        · simp [noMonths]
      · simp [noYears]
    have weeks : number 1 none = some 0 := rfl
    have noWeekDays : exactInt (0 * 7) = some 0 := rfl
    have exactDays : exactInt (days + 0) = some days := by simp [exactInt, daysFit]
    rw [text, if_neg zero, List.append_assoc]
    change parseFields 1 _ = _
    simp only [parseFields, readYears, readMonths, days_other 0x57 rfl, readDays, some_field,
      List.isEmpty_nil, Bool.and_true, if_true, number_intText yearsFit,
      number_intText monthsFit, number_intText daysFit, weeks, Option.bind_eq_bind,
      Option.bind_some, noWeekDays, exactDays]
    rfl

end Period

end Conclave.Lib
