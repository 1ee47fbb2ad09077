import Mathlib.Data.List.Basic
import Mathlib.Tactic.Common

/-!
# A stream cut into blocks

`blocks size data` cuts a string into pieces of `size` elements, the last of
which may be shorter.  A function that takes its input block by block, with a
buffer in front of it, has been given `data` once its state is what the whole
blocks lead to and the buffer holds the rest.
-/

set_option autoImplicit false

namespace Conclave.Lib

variable {α σ : Type} {size : Nat}

def blocks (size : Nat) (data : List α) : List (List α) :=
  if data = [] ∨ size = 0 then [] else data.take size :: blocks size (data.drop size)
termination_by data.length
decreasing_by
  rename_i more
  have nonempty := List.length_pos_iff.mpr (fun empty => more (.inl empty))
  have positive := Nat.pos_of_ne_zero (fun empty => more (.inr empty))
  rw [List.length_drop]
  omega

@[simp] theorem blocks_nil : blocks size ([] : List α) = [] := by
  rw [blocks, if_pos (.inl rfl)]

theorem blocks_of_ne_nil {data : List α} (positive : 0 < size) (nonempty : data ≠ []) :
    blocks size data = data.take size :: blocks size (data.drop size) := by
  rw [blocks, if_neg]
  rintro (empty | zero)
  · exact nonempty empty
  · omega

theorem blocks_single {block : List α} (nonempty : block ≠ []) (short : block.length ≤ size) :
    blocks size block = [block] := by
  have some := List.length_pos_iff.mpr nonempty
  rw [blocks_of_ne_nil (by omega) nonempty, List.take_of_length_le short,
    List.drop_of_length_le short, blocks_nil]

/-- What follows whole blocks is divided on its own. -/
theorem blocks_append {whole : List α} (positive : 0 < size) (rest : List α)
    (divides : size ∣ whole.length) :
    blocks size (whole ++ rest) = blocks size whole ++ blocks size rest := by
  obtain ⟨count, length⟩ := divides
  induction count generalizing whole with
  | zero =>
      obtain rfl := List.length_eq_zero_iff.mp (length.trans (Nat.mul_zero size))
      simp
  | succ count ih =>
      rw [Nat.mul_succ] at length
      have nonempty : whole ≠ [] := by
        rw [← List.length_pos_iff]
        omega
      rw [blocks_of_ne_nil positive (by simp [nonempty]), blocks_of_ne_nil positive nonempty,
        List.take_append_of_le_length (by omega), List.drop_append_of_le_length (by omega),
        ih (by rw [List.length_drop, length, Nat.add_sub_cancel]), List.cons_append]

/-! ## Block by block -/

variable (size) in
/-- Every block of `data`, one after the other. -/
def overBlocks (step : σ → List α → σ) (start : σ) (data : List α) : σ :=
  (blocks size data).foldl step start

variable {step : σ → List α → σ} {start : σ}

@[simp] theorem overBlocks_nil : overBlocks size step start [] = start := by
  rw [overBlocks, blocks_nil, List.foldl_nil]

theorem overBlocks_append {whole : List α} (positive : 0 < size) (rest : List α)
    (divides : size ∣ whole.length) :
    overBlocks size step start (whole ++ rest) =
      overBlocks size step (overBlocks size step start whole) rest := by
  rw [overBlocks, blocks_append positive rest divides, List.foldl_append]
  rfl

theorem overBlocks_single {block : List α} (nonempty : block ≠ [])
    (short : block.length ≤ size) : overBlocks size step start block = step start block := by
  rw [overBlocks, blocks_single nonempty short]
  rfl

/-- A last block that is whole. -/
theorem overBlocks_concat {whole block : List α} (positive : 0 < size)
    (divides : size ∣ whole.length) (length : block.length = size) :
    overBlocks size step start (whole ++ block) =
      step (overBlocks size step start whole) block := by
  have nonempty : block ≠ [] := by
    rw [← List.length_pos_iff]
    omega
  rw [overBlocks_append positive block divides, overBlocks_single nonempty (by omega)]

end Conclave.Lib
