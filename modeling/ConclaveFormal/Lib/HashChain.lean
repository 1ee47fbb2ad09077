import Mathlib.Data.List.Basic

/-!
# Chains of hashes

Parts are absorbed one after the other: each hash is that of the hash before it
and of the part.  Two chains of the same length that end alike have absorbed the
same parts, unless two different inputs among those they hashed have the same
digest.
-/

set_option autoImplicit false

namespace Conclave.Lib

variable {α : Type} (digest : List α → List α)

def absorb (start : List α) (parts : List (List α)) : List α :=
  parts.foldl (fun hash part => digest (hash ++ part)) start

/-- What is hashed on the way. -/
def hashedInputs : List α → List (List α) → List (List α)
  | _, [] => []
  | start, part :: parts => (start ++ part) :: hashedInputs (digest (start ++ part)) parts

/-- Two different inputs with one digest. -/
def Collides (inputs inputs' : List (List α)) : Prop :=
  ∃ first ∈ inputs, ∃ second ∈ inputs', first ≠ second ∧ digest first = digest second

variable {digest}

theorem absorb_append (start : List α) (parts more : List (List α)) :
    absorb digest start (parts ++ more) = absorb digest (absorb digest start parts) more :=
  List.foldl_append

theorem Collides.cons {inputs inputs' : List (List α)} (collides : Collides digest inputs inputs')
    (first second : List α) : Collides digest (first :: inputs) (second :: inputs') := by
  obtain ⟨one, member, other, member', different, equal⟩ := collides
  exact ⟨one, List.mem_cons_of_mem _ member, other, List.mem_cons_of_mem _ member', different,
    equal⟩

/-- The induction is over the parts; the hash before them is fixed by its length. -/
theorem absorb_inj (fixed : ∀ first second, (digest first).length = (digest second).length)
    {parts parts' : List (List α)} (count : parts.length = parts'.length) :
    ∀ {start start' : List α}, start.length = start'.length →
      absorb digest start parts = absorb digest start' parts' →
      (start = start' ∧ parts = parts') ∨
        Collides digest (hashedInputs digest start parts) (hashedInputs digest start' parts') := by
  induction parts generalizing parts' with
  | nil =>
      intro start start' _ equal
      cases parts' with
      | nil => exact Or.inl ⟨equal, rfl⟩
      | cons part parts => cases count
  | cons part parts ih =>
      intro start start' length equal
      cases parts' with
      | nil => cases count
      | cons part' parts' =>
          rcases ih (Nat.succ.inj count) (fixed _ _) equal with ⟨same, rfl⟩ | collides
          · by_cases inputs : start ++ part = start' ++ part'
            · obtain ⟨rfl, rfl⟩ := List.append_inj inputs length
              exact Or.inl ⟨rfl, rfl⟩
            · exact Or.inr ⟨_, List.mem_cons_self, _, List.mem_cons_self, inputs, same⟩
          · exact Or.inr (collides.cons _ _)

end Conclave.Lib
