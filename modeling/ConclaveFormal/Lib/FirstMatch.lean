import Mathlib.Data.List.Basic

/-!
# The first match in a list

What a loop returns that stops at the first element which meets a condition.  Under a weaker
condition it stops no later, so that in an ordered list it does not find anything worse.
-/

set_option autoImplicit false

namespace Conclave.Lib

variable {α : Type}

/-- The element meets the condition and none before it does. -/
def FirstMatch (P : α → Prop) (elements : List α) (element : α) : Prop :=
  ∃ before after, elements = before ++ element :: after ∧ P element ∧ ∀ other ∈ before, ¬ P other

theorem find?_eq_some_iff_firstMatch {p : α → Bool} {elements : List α} {element : α} :
    elements.find? p = some element ↔
      FirstMatch (fun element => p element = true) elements element := by
  rw [List.find?_eq_some_iff_append]
  constructor
  · rintro ⟨holds, before, after, split, earlier⟩
    refine ⟨before, after, split, holds, ?_⟩
    intro other member found
    have rejected := earlier other member
    rw [found] at rejected
    cases rejected
  · rintro ⟨before, after, split, holds, earlier⟩
    refine ⟨holds, before, after, split, ?_⟩
    intro other member
    rw [Bool.not_eq_true']
    exact Bool.eq_false_iff.mpr (earlier other member)

theorem find?_weaker {R : α → α → Prop} {p q : α → Bool} {elements : List α} {element : α}
    (weaker : ∀ other, p other = true → q other = true) (ordered : elements.Pairwise R)
    (found : elements.find? p = some element) :
    ∃ other, elements.find? q = some other ∧ (other = element ∨ R other element) := by
  induction elements with
  | nil => cases found
  | cons first rest ih =>
      obtain ⟨before, later⟩ := List.pairwise_cons.mp ordered
      by_cases matches' : q first = true
      · refine ⟨first, List.find?_cons_of_pos matches', ?_⟩
        rw [List.find?_cons] at found
        split at found
        · cases found
          exact .inl rfl
        · exact .inr (before element (List.mem_of_find?_eq_some found))
      · have skipped : ¬ p first = true := fun holds => matches' (weaker first holds)
        rw [List.find?_cons_of_neg skipped] at found
        obtain ⟨other, sooner, order⟩ := ih later found
        exact ⟨other, (List.find?_cons_of_neg matches').trans sooner, order⟩

end Conclave.Lib
