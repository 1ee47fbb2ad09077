import Mathlib.Data.List.Infix
import Mathlib.Data.List.Perm.Basic
import Mathlib.Data.List.InsertIdx

/-!
# Streams of self-delimiting frames

A set of words is prefix-free when a stream that starts with one of them tells
which.  A stream of such words determines the list of words it is made of, so a
prefix of the stream that ends between words is a prefix of the list.
-/

set_option autoImplicit false

namespace Conclave.Lib

variable {α : Type}

/-- Non-empty words, no two of which can start the same stream. -/
structure PrefixFree (isWord : List α → Prop) : Prop where
  nonempty : ¬ isWord []
  unique : ∀ {left right leftRest rightRest : List α}, isWord left → isWord right →
    left ++ leftRest = right ++ rightRest → left = right

theorem PrefixFree.prefix_of_flatten {isWord : List α → Prop} (free : PrefixFree isWord)
    {left right : List (List α)} (leftWords : ∀ word ∈ left, isWord word)
    (rightWords : ∀ word ∈ right, isWord word) (flat : left.flatten <+: right.flatten) :
    left <+: right := by
  induction left generalizing right with
  | nil => exact List.nil_prefix
  | cons word left ih =>
      obtain ⟨rest, whole⟩ := flat
      rw [List.flatten_cons, List.append_assoc] at whole
      have isWord := leftWords word (by simp)
      cases right with
      | nil =>
          have empty : word = [] := (List.append_eq_nil_iff.mp whole).1
          rw [empty] at isWord
          exact absurd isWord free.nonempty
      | cons other right =>
          rw [List.flatten_cons] at whole
          have same : word = other := free.unique isWord (rightWords other (by simp)) whole
          subst same
          have tail : left.flatten <+: right.flatten :=
            ⟨rest, List.append_cancel_left whole⟩
          exact List.prefix_cons_inj word |>.mpr
            (ih (fun other member => leftWords other (by simp [member]))
              (fun other member => rightWords other (by simp [member])) tail)

/-- A list does not start with a longer one it is a part of. -/
theorem not_prefix_of_sublist {words kept : List α} (part : kept.Sublist words)
    (changed : kept ≠ words) : ¬ words <+: kept := by
  intro start
  exact changed (part.eq_of_length_le start.length_le)

theorem not_prefix_of_perm {words order : List α} (same : order.Perm words)
    (changed : order ≠ words) : ¬ words <+: order := by
  intro start
  exact changed (start.eq_of_length same.length_eq.symm).symm

/-- A copy that is put in front of a closing word that occurs nowhere else. -/
theorem not_prefix_of_insertIdx {words : List α} {closing copied : α} {source target : Nat}
    (last : words[words.length - 1]? = some closing)
    (once : ∀ index, words[index]? = some closing → index = words.length - 1)
    (copy : words[source]? = some copied) (before : target < words.length)
    (moved : target = words.length - 1 → source ≠ words.length - 1) :
    ¬ words <+: words.insertIdx target copied := by
  rintro ⟨rest, whole⟩
  have kept : (words.insertIdx target copied)[words.length - 1]? = some closing := by
    rw [← whole, List.getElem?_append_left (by omega), last]
  by_cases atEnd : target = words.length - 1
  · rw [← atEnd, List.getElem?_insertIdx_self, if_pos (by omega)] at kept
    cases kept
    exact moved atEnd (once source copy)
  · rw [List.getElem?_insertIdx_of_gt (by omega)] at kept
    have earlier := once _ kept
    omega

end Conclave.Lib
