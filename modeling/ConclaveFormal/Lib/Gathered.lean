import Mathlib.Logic.Function.Basic

/-!
# Lists held by one of many

Of the lists that the holders have, at most one is not empty.
-/

set_option autoImplicit false

namespace Conclave.Lib

variable {ι α : Type} {parts : ι → List α} {whole : List α}

/-- `whole` is what the only holder has, or empty where nobody has anything. -/
structure Gathered (parts : ι → List α) (whole : List α) : Prop where
  nobody : (∀ i, parts i = []) → whole = []
  holder : ∀ i, parts i ≠ [] → parts i = whole
  others : ∀ i, parts i ≠ [] → ∀ j, j ≠ i → parts j = []

theorem gathered_nil (empty : ∀ i, parts i = []) : Gathered parts [] :=
  ⟨fun _ => rfl, fun i held => absurd (empty i) held, fun i held => absurd (empty i) held⟩

/-- Where the others have nothing, one has everything. -/
theorem Gathered.eq_of_others (gathered : Gathered parts whole) {i : ι}
    (others : ∀ j, j ≠ i → parts j = []) : parts i = whole := by
  by_cases held : parts i = []
  · have nobody : ∀ j, parts j = [] := by
      intro j
      by_cases same : j = i
      · rw [same, held]
      · exact others j same
    rw [held, gathered.nobody nobody]
  · exact gathered.holder i held

theorem gathered_update [DecidableEq ι] {i : ι} (others : ∀ j, j ≠ i → parts j = [])
    (whole : List α) : Gathered (Function.update parts i whole) whole := by
  refine ⟨?_, ?_, ?_⟩
  · intro empty
    have own := empty i
    rwa [Function.update_self] at own
  · intro j held
    by_cases same : j = i
    · rw [same, Function.update_self]
    · rw [Function.update_of_ne same] at held
      exact absurd (others j same) held
  · intro j held k apart
    by_cases same : j = i
    · rw [same] at apart
      rw [Function.update_of_ne apart, others k apart]
    · rw [Function.update_of_ne same] at held
      exact absurd (others j same) held

end Conclave.Lib
