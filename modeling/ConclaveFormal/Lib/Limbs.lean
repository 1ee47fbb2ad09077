import Mathlib.Tactic.LinearCombination
import ConclaveFormal.Lib.Bytes

/-!
# Numbers in limbs

A long number is a list of limbs, least significant first, in some base; a limb
may hold more than one digit's worth until its carry has been propagated.  The
operations store their results through `wrap`, the register they are computed
in, and mean exact arithmetic as long as `wrap` does not change what is stored.
-/

set_option autoImplicit false

namespace Conclave.Lib.Limbs

variable (base : Int)

def value : List Int → Int
  | [] => 0
  | limb :: limbs => limb + base * value limbs

/-- Carries between the limbs; the last one keeps what it cannot pass on. -/
def carryAll (wrap : Int → Int) : Int → List Int → List Int
  | _, [] => []
  | carry, [limb] => [wrap (carry + limb)]
  | carry, limb :: next :: limbs =>
      wrap (carry + limb) % base :: carryAll wrap (wrap (carry + limb) / base) (next :: limbs)

def add (wrap : Int → Int) (first second : List Int) : List Int :=
  List.zipWith (fun limb limb' => wrap (limb + limb')) first second

def scale (wrap : Int → Int) (factor : Int) (limbs : List Int) : List Int :=
  limbs.map fun limb => wrap (factor * limb)

/-- Long multiplication, one limb of the first factor after the other: `window`
holds the sums that the next limb adds to. -/
def multiplyLoop (wrap : Int → Int) (second : List Int) : List Int → List Int → List Int
  | window, [] => window
  | window, limb :: limbs =>
      match add wrap (window ++ [0]) (scale wrap limb second) with
      | [] => []
      | total :: window => total :: multiplyLoop wrap second window limbs

def multiply (wrap : Int → Int) (first second : List Int) : List Int :=
  multiplyLoop wrap second (List.replicate (second.length - 1) 0) first

variable {base}

/-! ## Values -/

@[simp] theorem value_nil : value base [] = 0 := rfl

@[simp] theorem value_cons (limb : Int) (limbs : List Int) :
    value base (limb :: limbs) = limb + base * value base limbs := rfl

theorem value_append (first second : List Int) :
    value base (first ++ second) = value base first + base ^ first.length * value base second := by
  induction first with
  | nil => simp
  | cons limb limbs ih =>
      rw [List.cons_append, value_cons, value_cons, ih, List.length_cons, pow_succ]
      ring

theorem value_replicate_zero (count : Nat) : value base (List.replicate count 0) = 0 := by
  induction count with
  | zero => rfl
  | succ count ih => rw [List.replicate_succ, value_cons, ih, mul_zero, add_zero]

theorem value_nonneg (positive : 0 < base) {limbs : List Int} (digits : ∀ limb ∈ limbs, 0 ≤ limb) :
    0 ≤ value base limbs := by
  induction limbs with
  | nil => exact le_refl 0
  | cons limb limbs ih =>
      have rest := ih fun other member => digits other (by simp [member])
      have head := digits limb (by simp)
      rw [value_cons]
      positivity

/-! ## Carries -/

section Carries

variable {wrap : Int → Int} {limit bound : Int}

@[simp] theorem carryAll_length (wrap : Int → Int) (carry : Int) (limbs : List Int) :
    (carryAll base wrap carry limbs).length = limbs.length := by
  fun_induction carryAll base wrap carry limbs with
  | case1 => rfl
  | case2 => rfl
  | case3 carry limb next limbs ih => simp only [List.length_cons, ih]

/-- A carry below `bound` stays below it, and the register holds the sum. -/
theorem carry_bounds (positive : 0 < base)
    (exact : ∀ sum, 0 ≤ sum → sum < bound + limit → wrap sum = sum)
    (room : limit + bound ≤ base * bound) {carry limb : Int} (low : 0 ≤ carry)
    (high : carry < bound) (limbLow : 0 ≤ limb) (limbHigh : limb < limit) :
    wrap (carry + limb) = carry + limb ∧ 0 ≤ (carry + limb) / base ∧
      (carry + limb) / base < bound := by
  refine ⟨exact _ (by omega) (by omega), Int.ediv_nonneg (by omega) positive.le, ?_⟩
  refine Int.ediv_lt_of_lt_mul positive ?_
  rw [mul_comm]
  omega

/-- The value stays, and every limb but the last becomes a digit. -/
theorem carryAll_spec (positive : 0 < base)
    (exact : ∀ sum, 0 ≤ sum → sum < bound + limit → wrap sum = sum)
    (room : limit + bound ≤ base * bound) {carry : Int} {limbs : List Int} (low : 0 ≤ carry)
    (high : carry < bound) (inside : ∀ limb ∈ limbs, 0 ≤ limb ∧ limb < limit)
    (nonempty : limbs ≠ []) :
    value base (carryAll base wrap carry limbs) = carry + value base limbs ∧
      (∀ limb ∈ carryAll base wrap carry limbs, 0 ≤ limb) ∧
      ∀ limb ∈ (carryAll base wrap carry limbs).dropLast, limb < base := by
  fun_induction carryAll base wrap carry limbs with
  | case1 => exact absurd rfl nonempty
  | case2 carry limb =>
      obtain ⟨limbLow, limbHigh⟩ := inside limb (by simp)
      obtain ⟨same, _⟩ := carry_bounds positive exact room low high limbLow limbHigh
      rw [same]
      refine ⟨by simp, ?_, by simp⟩
      intro other member
      rw [List.mem_singleton] at member
      omega
  | case3 carry limb next limbs ih =>
      obtain ⟨limbLow, limbHigh⟩ := inside limb (by simp)
      obtain ⟨same, carryLow, carryHigh⟩ :=
        carry_bounds positive exact room low high limbLow limbHigh
      rw [same] at ih ⊢
      obtain ⟨total, nonneg, digits⟩ := ih carryLow carryHigh
        (fun other member => inside other (by simp [List.mem_cons.mp member])) (by simp)
      refine ⟨?_, ?_, ?_⟩
      · rw [value_cons, total, value_cons limb]
        have split := Int.emod_add_mul_ediv (carry + limb) base
        linarith
      · intro other member
        rcases List.mem_cons.mp member with rfl | member
        · exact Int.emod_nonneg _ positive.ne'
        · exact nonneg other member
      · intro other member
        rw [List.dropLast_cons_of_ne_nil (by
          rw [← List.length_pos_iff, carryAll_length]; simp)] at member
        rcases List.mem_cons.mp member with rfl | member
        · exact Int.emod_lt_of_pos _ positive
        · exact digits other member

end Carries

/-! ## Sums and products -/

section Products

variable {wrap : Int → Int} {limit bound : Int}

@[simp] theorem add_length (wrap : Int → Int) (first second : List Int) :
    (add wrap first second).length = min first.length second.length := by
  simp [add]

/-- Sums that the register holds are sums of the values. -/
theorem add_spec (exact : ∀ sum, 0 ≤ sum → sum ≤ limit + bound → wrap sum = sum)
    {first second : List Int} (length : first.length = second.length)
    (inside : ∀ limb ∈ first, 0 ≤ limb ∧ limb ≤ limit)
    (inside' : ∀ limb ∈ second, 0 ≤ limb ∧ limb ≤ bound) :
    value base (add wrap first second) = value base first + value base second ∧
      ∀ limb ∈ add wrap first second, 0 ≤ limb ∧ limb ≤ limit + bound := by
  induction first generalizing second with
  | nil =>
      obtain rfl := List.length_eq_zero_iff.mp length.symm
      exact ⟨by simp [add], by simp [add]⟩
  | cons limb limbs ih =>
      obtain ⟨limb', limbs', rfl⟩ := List.exists_of_length_succ second length.symm
      obtain ⟨low, high⟩ := inside limb (by simp)
      obtain ⟨low', high'⟩ := inside' limb' (by simp)
      obtain ⟨total, sums⟩ := ih (Nat.succ.inj length)
        (fun other member => inside other (by simp [member]))
        (fun other member => inside' other (by simp [member]))
      have same := exact (limb + limb') (by omega) (by omega)
      simp only [add, List.zipWith_cons_cons] at total sums ⊢
      rw [same]
      refine ⟨?_, ?_⟩
      · rw [value_cons, value_cons, value_cons, total]
        ring
      · intro other member
        rcases List.mem_cons.mp member with rfl | member
        · omega
        · exact sums other member

@[simp] theorem scale_length (wrap : Int → Int) (factor : Int) (limbs : List Int) :
    (scale wrap factor limbs).length = limbs.length := by
  simp [scale]

theorem scale_spec {factor : Int} {limbs : List Int}
    (exact : ∀ limb ∈ limbs, wrap (factor * limb) = factor * limb) :
    value base (scale wrap factor limbs) = factor * value base limbs := by
  induction limbs with
  | nil => simp [scale]
  | cons limb limbs ih =>
      have rest := ih fun other member => exact other (by simp [member])
      simp only [scale, List.map_cons] at rest ⊢
      rw [value_cons, value_cons, rest, exact limb (by simp)]
      ring

/-- No column gets more summands than the first factor has limbs. -/
theorem multiplyLoop_spec {count : Nat} {product : Int} {second : List Int}
    (exact : ∀ sum, 0 ≤ sum → sum ≤ count * product → wrap sum = sum) (positive : 0 ≤ product)
    {window limbs : List Int} {done : Nat} (inTotal : done + limbs.length ≤ count)
    (length : window.length + 1 = second.length)
    (sums : ∀ sum ∈ window, 0 ≤ sum ∧ sum ≤ done * product)
    (products : ∀ limb ∈ limbs, ∀ limb' ∈ second, 0 ≤ limb * limb' ∧ limb * limb' ≤ product) :
    value base (multiplyLoop wrap second window limbs) =
        value base window + value base limbs * value base second ∧
      (multiplyLoop wrap second window limbs).length = window.length + limbs.length ∧
      ∀ sum ∈ multiplyLoop wrap second window limbs, 0 ≤ sum ∧ sum ≤ count * product := by
  induction limbs generalizing window done with
  | nil =>
      refine ⟨by simp [multiplyLoop], by simp [multiplyLoop], ?_⟩
      intro sum member
      obtain ⟨low, high⟩ := sums sum member
      have scaled : (done : Int) * product ≤ count * product := by
        refine Int.mul_le_mul_of_nonneg_right ?_ positive
        exact_mod_cast by simpa using inTotal
      exact ⟨low, by omega⟩
  | cons limb limbs ih =>
      rw [List.length_cons] at inTotal
      have times : ((done + 1 : Nat) : Int) * product = done * product + product := by
        push_cast
        ring
      have within : ((done + 1 : Nat) : Int) * product ≤ count * product := by
        refine Int.mul_le_mul_of_nonneg_right ?_ positive
        exact_mod_cast (by omega : done + 1 ≤ count)
      have partials : (0 : Int) ≤ done * product := by positivity
      have exactProduct : ∀ limb' ∈ second, wrap (limb * limb') = limb * limb' := by
        intro limb' member
        obtain ⟨low, high⟩ := products limb (by simp) limb' member
        exact exact _ low (by omega)
      have scaled : ∀ sum ∈ scale wrap limb second, 0 ≤ sum ∧ sum ≤ product := by
        intro sum member
        obtain ⟨limb', there, rfl⟩ := List.mem_map.mp member
        rw [exactProduct limb' there]
        exact products limb (by simp) limb' there
      have padded : ∀ sum ∈ window ++ [0], 0 ≤ sum ∧ sum ≤ done * product := by
        intro sum member
        rcases List.mem_append.mp member with member | member
        · exact sums sum member
        · rw [List.mem_singleton.mp member]
          exact ⟨le_refl 0, partials⟩
      obtain ⟨total, bounds⟩ := @add_spec base wrap _ _
        (fun sum low high => exact sum low (by omega)) _ _ (by simp [length]) padded scaled
      have totalLength : (add wrap (window ++ [0]) (scale wrap limb second)).length =
          window.length + 1 := by simp [length]
      obtain ⟨sum, next, columns⟩ := List.exists_of_length_succ _ totalLength
      rw [columns] at total bounds totalLength
      simp only [multiplyLoop, columns]
      obtain ⟨rest, restLength, restBounds⟩ := @ih next (done + 1) (by omega)
        (by rw [List.length_cons] at totalLength; omega)
        (fun other member => by rw [times]; exact bounds other (by simp [member]))
        (fun other member => products other (by simp [member]))
      rw [scale_spec exactProduct, value_append, value_cons, value_cons 0, value_nil] at total
      refine ⟨?_, ?_, ?_⟩
      · rw [value_cons, rest, value_cons limb]
        linear_combination total
      · rw [List.length_cons, restLength, List.length_cons]
        rw [List.length_cons] at totalLength
        omega
      · intro other member
        rcases List.mem_cons.mp member with rfl | member
        · obtain ⟨low, high⟩ := bounds other (by simp)
          exact ⟨low, by omega⟩
        · exact restBounds other member

/-- The columns of a long multiplication have the value of the product. -/
theorem multiply_spec {product : Int} {first second : List Int}
    (exact : ∀ sum, 0 ≤ sum → sum ≤ first.length * product → wrap sum = sum)
    (positive : 0 ≤ product) (nonempty : second ≠ [])
    (products : ∀ limb ∈ first, ∀ limb' ∈ second, 0 ≤ limb * limb' ∧ limb * limb' ≤ product) :
    value base (multiply wrap first second) = value base first * value base second ∧
      (multiply wrap first second).length = first.length + (second.length - 1) ∧
      ∀ sum ∈ multiply wrap first second, 0 ≤ sum ∧ sum ≤ first.length * product := by
  have length := List.length_pos_iff.mpr nonempty
  obtain ⟨total, columns, bounds⟩ := @multiplyLoop_spec base wrap _ _ _ exact positive
    (List.replicate (second.length - 1) 0) _ 0 (by omega)
    (by rw [List.length_replicate]; omega)
    (by
      intro sum member
      rw [List.eq_of_mem_replicate member]
      simp) products
  rw [value_replicate_zero, zero_add] at total
  rw [List.length_replicate] at columns
  exact ⟨total, by rw [multiply, columns]; omega, bounds⟩

end Products

end Conclave.Lib.Limbs
