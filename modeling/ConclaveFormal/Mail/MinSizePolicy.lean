import ConclaveFormal.Lib.Bytes
import Mathlib.Algebra.Order.BigOperators.Group.List
import Mathlib.Data.List.Induction

/-!
# Minimum size policies

What a post office asks for the size that a mail is padded to.  The moving average is kept as a sum
of 64 bits and a counter of 32, and one instance of it serves all post offices of an enclave for as
long as it lives.
-/

set_option autoImplicit false

namespace Conclave.Mail

open Conclave.Lib

inductive ArithmeticException where
  | longOverflow
  | divisionByZero
  deriving DecidableEq, Repr

/-! ## The policies -/

/-- `init` requires that the size is not negative. -/
structure Fixed where
  minSize : Int
  nonneg : 0 ≤ minSize

structure LargestSeen where
  seen : Int
  deriving DecidableEq

/-- `sum` is a `Long` and `count` an `Int`. -/
structure MovingAverage where
  sum : Int
  count : Int
  deriving DecidableEq

def Fixed.getMinSize (policy : Fixed) (_bodySize : Int) : Int := policy.minSize

def LargestSeen.new : LargestSeen := ⟨0⟩

def LargestSeen.getMinSize (policy : LargestSeen) (bodySize : Int) : Int × LargestSeen :=
  let policy := if bodySize > policy.seen then ⟨bodySize⟩ else policy
  (policy.seen, policy)

def addExact (left right : Int) : Except ArithmeticException Int :=
  if -2 ^ 63 ≤ left + right ∧ left + right < 2 ^ 63 then .ok (left + right)
  else .error .longOverflow

def divide (dividend divisor : Int) : Except ArithmeticException Int :=
  if divisor = 0 then .error .divisionByZero else .ok (dividend.tdiv divisor)

namespace MovingAverage

def new : MovingAverage := ⟨0, 0⟩

/-- A sum that overflows is reset to the current average, which throws if there is none. -/
def add (policy : MovingAverage) (bodySize : Int) : Except ArithmeticException MovingAverage :=
  match addExact policy.sum bodySize with
  | .ok sum => .ok { policy with sum := sum }
  | .error _ => (divide policy.sum policy.count).map fun resetToAverage => ⟨resetToAverage, 1⟩

/-- The new fields are stored before the division. -/
def getMinSize (policy : MovingAverage) (bodySize : Int) :
    Except ArithmeticException Int × MovingAverage :=
  match policy.add bodySize with
  | .error e => (.error e, policy)
  | .ok added =>
      let counted := { added with count := wrap32 (added.count + 1) }
      ((divide counted.sum counted.count).map wrap32, counted)

/-- The policy after calls with these sizes. -/
def after (policy : MovingAverage) (bodySizes : List Int) : MovingAverage :=
  bodySizes.foldl (fun policy bodySize => (policy.getMinSize bodySize).2) policy

end MovingAverage

/-- A size that Kotlin's `Int` holds and that is not negative. -/
def IsSize (size : Int) : Prop := 0 ≤ size ∧ size < 2 ^ 31

/-! ## Averages -/

section Averages

variable {sizes : List Int}

theorem sum_nonneg (nonneg : ∀ size ∈ sizes, 0 ≤ size) : 0 ≤ sizes.sum :=
  List.sum_nonneg nonneg

theorem exists_le_average (some_size : sizes ≠ []) :
    ∃ small ∈ sizes, small ≤ sizes.sum / sizes.length := by
  have positive : (0 : Int) < sizes.length := by
    have := List.length_pos_iff.mpr some_size
    omega
  by_contra none
  push Not at none
  have above := List.card_nsmul_le_sum sizes (sizes.sum / sizes.length + 1) none
  have below := Int.lt_mul_ediv_self_add (x := sizes.sum) positive
  rw [nsmul_eq_mul, mul_add] at above
  omega

theorem exists_average_le (some_size : sizes ≠ []) :
    ∃ large ∈ sizes, sizes.sum / sizes.length ≤ large := by
  have positive : (0 : Int) < sizes.length := by
    have := List.length_pos_iff.mpr some_size
    omega
  by_contra none
  push Not at none
  have below := List.sum_le_card_nsmul sizes (sizes.sum / sizes.length - 1)
    fun size member => by
      have := none size member
      omega
  have above := Int.mul_ediv_self_le (x := sizes.sum) positive.ne'
  rw [nsmul_eq_mul, mul_sub] at below
  omega

end Averages

/-! ## The largest size -/

namespace LargestSeen

def after (policy : LargestSeen) (bodySizes : List Int) : LargestSeen :=
  bodySizes.foldl (fun policy bodySize => (policy.getMinSize bodySize).2) policy

theorem seen_getMinSize (policy : LargestSeen) (bodySize : Int) :
    (policy.getMinSize bodySize).2.seen = max policy.seen bodySize := by
  rw [getMinSize]
  by_cases larger : bodySize > policy.seen
  · rw [if_pos larger]
    exact (max_eq_right larger.le).symm
  · rw [if_neg larger]
    exact (max_eq_left (not_lt.mp larger)).symm

theorem after_append (policy : LargestSeen) (bodySizes : List Int) (bodySize : Int) :
    policy.after (bodySizes ++ [bodySize]) = ((policy.after bodySizes).getMinSize bodySize).2 :=
  List.foldl_concat _ _ _ _

theorem le_seen {bodySizes : List Int} {bodySize : Int} (member : bodySize ∈ bodySizes) :
    bodySize ≤ (new.after bodySizes).seen := by
  induction bodySizes using List.reverseRecOn with
  | nil => cases member
  | append_singleton bodySizes last ih =>
      rw [after_append, seen_getMinSize]
      rcases List.mem_append.mp member with earlier | isLast
      · exact (ih earlier).trans (le_max_left _ _)
      · rw [List.mem_singleton.mp isLast]
        exact le_max_right _ _

theorem seen_mem (bodySizes : List Int) :
    (new.after bodySizes).seen = 0 ∨ (new.after bodySizes).seen ∈ bodySizes := by
  induction bodySizes using List.reverseRecOn with
  | nil => exact Or.inl rfl
  | append_singleton bodySizes last ih =>
      rw [after_append, seen_getMinSize]
      rcases max_choice (new.after bodySizes).seen last with kept | replaced
      · rw [kept]
        exact ih.imp_right (List.mem_append_left [last])
      · rw [replaced]
        exact Or.inr (List.mem_append_right bodySizes List.mem_cons_self)

end LargestSeen

/-! ## The moving average -/

namespace MovingAverage

/-- A call returns, and what it returns lies between the smallest and the largest size. -/
def Between (sizes : List Int) (call : Except ArithmeticException Int) : Prop :=
  ∃ result, call = .ok result ∧ 0 ≤ result ∧ (∃ small ∈ sizes, small ≤ result) ∧
    ∃ large ∈ sizes, result ≤ large

/-- Every call of a run keeps between the sizes that have been seen by then. -/
def Bounded (bodySizes : List Int) : Prop :=
  ∀ earlier bodySize later, bodySizes = earlier ++ bodySize :: later →
    Between (earlier ++ [bodySize]) ((new.after earlier).getMinSize bodySize).1

/-- The counter has not wrapped, or the sum is so small that it does not show. -/
def CounterSuffices (bodySizes : List Int) : Prop :=
  bodySizes.length < 2 ^ 31 ∨ bodySizes.length + bodySizes.sum < 2 ^ 32

theorem after_append (policy : MovingAverage) (bodySizes : List Int) (bodySize : Int) :
    policy.after (bodySizes ++ [bodySize]) = ((policy.after bodySizes).getMinSize bodySize).2 :=
  List.foldl_concat _ _ _ _

theorem bounded_nil : Bounded [] := by
  intro earlier bodySize later split
  cases earlier with
  | nil => cases split
  | cons first earlier => cases split

theorem bounded_append {bodySizes : List Int} {bodySize : Int} :
    Bounded (bodySizes ++ [bodySize]) ↔
      Bounded bodySizes ∧
        Between (bodySizes ++ [bodySize]) ((new.after bodySizes).getMinSize bodySize).1 := by
  constructor
  · intro bounded
    refine ⟨?_, bounded bodySizes bodySize [] rfl⟩
    intro earlier size later split
    apply bounded earlier size (later ++ [bodySize])
    rw [split, List.append_assoc, List.cons_append]
  · rintro ⟨bounded, last⟩ earlier size later split
    rcases List.eq_nil_or_concat later with rfl | ⟨middle, final, rfl⟩
    · obtain ⟨rfl, same⟩ := List.append_inj' split rfl
      cases same
      exact last
    · have shorter : bodySizes ++ [bodySize] = (earlier ++ size :: middle) ++ [final] := by
        rw [split, List.concat_eq_append, List.append_assoc, List.cons_append]
      exact bounded earlier size middle (List.append_inj' shorter rfl).1

variable {bodySizes : List Int} {bodySize : Int}

theorem sum_le (sizes : ∀ size ∈ bodySizes, IsSize size) :
    bodySizes.sum ≤ bodySizes.length * (2 ^ 31 - 1) := by
  have bound := List.sum_le_card_nsmul bodySizes (2 ^ 31 - 1) fun size member => by
    have := (sizes size member).2
    omega
  rwa [nsmul_eq_mul] at bound

theorem sum_lt (sizes : ∀ size ∈ bodySizes, IsSize size) (few : bodySizes.length < 2 ^ 32) :
    bodySizes.sum < 2 ^ 32 * (2 ^ 31 - 1) := by
  have bound := sum_le sizes
  omega

/-- While the counter can take all the sizes, the sum does not overflow. -/
theorem add_eq {policy : MovingAverage} (nonneg : 0 ≤ policy.sum)
    (small : policy.sum < 2 ^ 32 * (2 ^ 31 - 1)) (size : IsSize bodySize) :
    policy.add bodySize = .ok { policy with sum := policy.sum + bodySize } := by
  obtain ⟨low, high⟩ := size
  have fits : -2 ^ 63 ≤ policy.sum + bodySize ∧ policy.sum + bodySize < 2 ^ 63 := by omega
  rw [add, addExact, if_pos fits]

theorem getMinSize_eq {policy : MovingAverage} (nonneg : 0 ≤ policy.sum)
    (small : policy.sum < 2 ^ 32 * (2 ^ 31 - 1)) (size : IsSize bodySize) :
    policy.getMinSize bodySize =
      ((divide (policy.sum + bodySize) (wrap32 (policy.count + 1))).map wrap32,
        ⟨policy.sum + bodySize, wrap32 (policy.count + 1)⟩) := by
  rw [getMinSize, add_eq nonneg small size]

theorem after_eq (sizes : ∀ size ∈ bodySizes, IsSize size) (few : bodySizes.length ≤ 2 ^ 32) :
    new.after bodySizes = ⟨bodySizes.sum, wrap32 bodySizes.length⟩ := by
  induction bodySizes using List.reverseRecOn with
  | nil => rfl
  | append_singleton bodySizes last ih =>
      have earlier : ∀ size ∈ bodySizes, IsSize size := fun size member =>
        sizes size (List.mem_append_left [last] member)
      have nonneg := sum_nonneg fun size member => (earlier size member).1
      have size := sizes last (List.mem_append_right _ List.mem_cons_self)
      rw [List.length_append, List.length_singleton] at few
      rw [after_append, ih earlier (by omega),
        getMinSize_eq nonneg (sum_lt earlier (by omega)) size, wrap32_wrap32_add, List.sum_append,
        List.sum_singleton, List.length_append, List.length_singleton, Nat.cast_add, Nat.cast_one]

theorem last_call (sizes : ∀ size ∈ bodySizes ++ [bodySize], IsSize size)
    (few : (bodySizes ++ [bodySize]).length ≤ 2 ^ 32) :
    ((new.after bodySizes).getMinSize bodySize).1 =
      (divide (bodySizes ++ [bodySize]).sum (wrap32 (bodySizes ++ [bodySize]).length)).map
        wrap32 := by
  have earlier : ∀ size ∈ bodySizes, IsSize size := fun size member =>
    sizes size (List.mem_append_left [bodySize] member)
  have nonneg := sum_nonneg fun size member => (earlier size member).1
  have size := sizes bodySize (List.mem_append_right _ List.mem_cons_self)
  rw [List.length_append, List.length_singleton] at few
  rw [after_eq earlier (by omega), getMinSize_eq nonneg (sum_lt earlier (by omega)) size,
    wrap32_wrap32_add, List.sum_append, List.sum_singleton, List.length_append,
    List.length_singleton, Nat.cast_add, Nat.cast_one]

/-! ### What a call returns -/

/-- As long as the counter has not wrapped, it is the average. -/
theorem between_average (sizes : ∀ size ∈ bodySizes, IsSize size) (some_size : bodySizes ≠ [])
    (few : bodySizes.length < 2 ^ 31) :
    Between bodySizes ((divide bodySizes.sum (wrap32 bodySizes.length)).map wrap32) := by
  have positive := List.length_pos_iff.mpr some_size
  have nonneg := sum_nonneg fun size member => (sizes size member).1
  obtain ⟨small, smallMember, above⟩ := exists_le_average some_size
  obtain ⟨large, largeMember, below⟩ := exists_average_le some_size
  have average_nonneg : 0 ≤ bodySizes.sum / bodySizes.length :=
    (sizes small smallMember).1.trans above
  have counted : wrap32 bodySizes.length = bodySizes.length :=
    wrap32_of_range (by omega) (by omega)
  have fits : wrap32 (bodySizes.sum / bodySizes.length) = bodySizes.sum / bodySizes.length :=
    wrap32_of_range (by omega) (below.trans_lt (sizes large largeMember).2)
  have divided : (divide bodySizes.sum (wrap32 bodySizes.length)).map wrap32 =
      .ok (bodySizes.sum / bodySizes.length) := by
    rw [counted, divide, if_neg (by omega), Int.tdiv_eq_ediv_of_nonneg nonneg]
    exact congrArg Except.ok fits
  exact ⟨_, divided, average_nonneg, ⟨small, smallMember, above⟩, large, largeMember, below⟩

/-- A counter that has wrapped is negative, and what is not 0 comes out below it. -/
theorem between_wrapped (sizes : ∀ size ∈ bodySizes, IsSize size)
    (many : 2 ^ 31 ≤ bodySizes.length) (few : bodySizes.length < 2 ^ 32)
    (small : bodySizes.sum ≤ (2 ^ 32 - bodySizes.length) * 2 ^ 31) :
    Between bodySizes ((divide bodySizes.sum (wrap32 bodySizes.length)).map wrap32) ↔
      bodySizes.length + bodySizes.sum < 2 ^ 32 := by
  have nonneg := sum_nonneg fun size member => (sizes size member).1
  obtain ⟨rest, room⟩ : ∃ rest : Int, rest = 2 ^ 32 - bodySizes.length := ⟨_, rfl⟩
  have positive : 0 < rest := by omega
  have counted : wrap32 bodySizes.length = -rest := by
    rw [wrap32, Int.bmod_def]
    split <;> omega
  have quotient_le : bodySizes.sum / rest ≤ 2 ^ 31 :=
    Int.ediv_le_of_le_mul positive (by rw [room]; omega)
  have quotient_nonneg : 0 ≤ bodySizes.sum / rest := Int.ediv_nonneg nonneg positive.le
  have divided : (divide bodySizes.sum (wrap32 bodySizes.length)).map wrap32 =
      .ok (-(bodySizes.sum / rest)) := by
    rw [counted, divide, if_neg (by omega), Int.tdiv_neg, Int.tdiv_eq_ediv_of_nonneg nonneg]
    exact congrArg Except.ok (wrap32_of_range (by omega) (by omega))
  rw [divided]
  constructor
  · rintro ⟨result, returned, result_nonneg, -⟩
    cases returned
    have none : bodySizes.sum / rest = 0 := by omega
    have below := (Int.ediv_lt_iff_lt_mul positive).mp (by omega : bodySizes.sum / rest < 1)
    omega
  · intro below
    have none : bodySizes.sum / rest = 0 := Int.ediv_eq_zero_of_lt nonneg (by omega)
    -- Otherwise there would be a sum as large as the number of sizes.
    have some_zero : ∃ size ∈ bodySizes, size ≤ 0 := by
      by_contra positive_sizes
      push Not at positive_sizes
      have large := List.card_nsmul_le_sum bodySizes 1 positive_sizes
      rw [nsmul_eq_mul, mul_one] at large
      omega
    obtain ⟨zero, member, isZero⟩ := some_zero
    rw [none, neg_zero]
    exact ⟨0, rfl, le_rfl, ⟨zero, member, isZero⟩, zero, member, (sizes zero member).1⟩

/-- With 2 ^ 32 sizes the counter is 0. -/
theorem not_between_of_zero (whole : bodySizes.length = 2 ^ 32) :
    ¬Between bodySizes ((divide bodySizes.sum (wrap32 bodySizes.length)).map wrap32) := by
  rintro ⟨result, returned, -⟩
  rw [whole] at returned
  cases returned

/-! ### Whole runs -/

theorem counterSuffices_nil : CounterSuffices [] := Or.inl (by simp)

theorem CounterSuffices.of_append (sizes : ∀ size ∈ bodySizes ++ [bodySize], IsSize size)
    (suffices_all : CounterSuffices (bodySizes ++ [bodySize])) : CounterSuffices bodySizes := by
  have size := (sizes bodySize (List.mem_append_right _ List.mem_cons_self)).1
  rw [CounterSuffices, List.length_append, List.length_singleton, List.sum_append,
    List.sum_singleton] at suffices_all
  rcases suffices_all with few | small
  · exact Or.inl (by omega)
  · exact Or.inr (by omega)

/-- One more size: up to here the counter has sufficed, so that the sum is not large yet. -/
theorem between_last_iff (sizes : ∀ size ∈ bodySizes ++ [bodySize], IsSize size)
    (sufficed : CounterSuffices bodySizes) :
    Between (bodySizes ++ [bodySize]) ((new.after bodySizes).getMinSize bodySize).1 ↔
      CounterSuffices (bodySizes ++ [bodySize]) := by
  have earlier : ∀ size ∈ bodySizes, IsSize size := fun size member =>
    sizes size (List.mem_append_left [bodySize] member)
  have nonneg := sum_nonneg fun size member => (earlier size member).1
  have bound := sum_le earlier
  obtain ⟨low, high⟩ := sizes bodySize (List.mem_append_right _ List.mem_cons_self)
  have length : (bodySizes ++ [bodySize]).length = bodySizes.length + 1 := by simp
  have sum : (bodySizes ++ [bodySize]).sum = bodySizes.sum + bodySize := by simp
  have few : (bodySizes ++ [bodySize]).length ≤ 2 ^ 32 := by
    rcases sufficed with few | small
    · omega
    · omega
  rw [last_call sizes few]
  rcases lt_or_ge (bodySizes ++ [bodySize]).length (2 ^ 31) with unwrapped | wrapped
  · exact iff_of_true (between_average sizes (by simp) unwrapped) (Or.inl unwrapped)
  · rcases few.lt_or_eq with negative | zero
    · have small : (bodySizes ++ [bodySize]).sum ≤
          (2 ^ 32 - (bodySizes ++ [bodySize]).length) * 2 ^ 31 := by
        rw [length, sum]
        rcases sufficed with few | small
        · push_cast
          omega
        · push_cast
          omega
      rw [between_wrapped sizes wrapped negative small]
      exact (or_iff_right (not_lt.mpr wrapped)).symm
    · refine iff_of_false (not_between_of_zero zero) ?_
      rintro (few | small)
      · omega
      · omega

/-- The results keep between the sizes seen so far exactly as long as there are fewer than 2 ^ 31 of
them, or as the number of sizes and their sum are together below 2 ^ 32. -/
theorem bounded_iff (sizes : ∀ size ∈ bodySizes, IsSize size) :
    Bounded bodySizes ↔ CounterSuffices bodySizes := by
  induction bodySizes using List.reverseRecOn with
  | nil => exact iff_of_true bounded_nil counterSuffices_nil
  | append_singleton bodySizes last ih =>
      have earlier : ∀ size ∈ bodySizes, IsSize size := fun size member =>
        sizes size (List.mem_append_left [last] member)
      rw [bounded_append, ih earlier]
      constructor
      · rintro ⟨sufficed, between⟩
        exact (between_last_iff sizes sufficed).mp between
      · intro sufficed_all
        have sufficed := sufficed_all.of_append sizes
        exact ⟨sufficed, (between_last_iff sizes sufficed).mpr sufficed_all⟩

theorem bounded_threeSizes : Bounded [100, 4000, 0] := by
  have sizes : ∀ size ∈ ([100, 4000, 0] : List Int), IsSize size := by simp [IsSize]
  exact (bounded_iff sizes).mpr (Or.inl (by decide))

/-- With 2 ^ 31 sizes of 1 the counter is negative, and so is the average. -/
theorem negative_average :
    ¬∀ bodySizes : List Int, (∀ size ∈ bodySizes, IsSize size) → Bounded bodySizes := by
  intro stated
  obtain ⟨count, enough⟩ : ∃ count : Nat, count + 1 = 2 ^ 31 := ⟨2 ^ 31 - 1, by norm_num⟩
  have sizes : ∀ size ∈ List.replicate count (1 : Int) ++ [1], IsSize size := by
    intro size member
    have one : size = 1 := by
      rcases List.mem_append.mp member with earlier | last
      · exact List.eq_of_mem_replicate earlier
      · exact List.mem_singleton.mp last
    rw [one]
    exact ⟨by decide, by decide⟩
  have length : (List.replicate count (1 : Int) ++ [1]).length = 2 ^ 31 := by simp [enough]
  have sum : (List.replicate count (1 : Int) ++ [1]).sum = 2 ^ 31 := by
    have cast : (count : Int) + 1 = 2 ^ 31 := by exact_mod_cast enough
    simp [cast]
  have between := (bounded_append.mp (stated _ sizes)).2
  rw [last_call sizes (by omega), between_wrapped sizes (by omega) (by omega) (by omega)] at between
  omega

end MovingAverage

end Conclave.Mail
