import Mathlib.Data.List.Forall2

/-!
# Computations that may throw

What a composed computation returns or throws, from what its parts do.
-/

set_option autoImplicit false

namespace Conclave.Lib

variable {ε α β : Type}

theorem bind_eq_ok {first : Except ε α} {next : α → Except ε β} {result : β}
    (returned : (first >>= next) = .ok result) :
    ∃ value, first = .ok value ∧ next value = .ok result := by
  cases first with
  | error e => cases returned
  | ok value => exact ⟨value, rfl, returned⟩

theorem bind_eq_error {first : Except ε α} {next : α → Except ε β} {e : ε}
    (thrown : (first >>= next) = .error e) :
    first = .error e ∨ ∃ value, first = .ok value ∧ next value = .error e := by
  cases first with
  | error other =>
      cases thrown
      exact .inl rfl
  | ok value => exact .inr ⟨value, rfl, thrown⟩

theorem map_eq_ok {first : Except ε α} {f : α → β} {result : β}
    (returned : first.map f = .ok result) : ∃ value, first = .ok value ∧ f value = result := by
  cases first with
  | error e => cases returned
  | ok value =>
      cases returned
      exact ⟨value, rfl, rfl⟩

theorem mapError_eq_ok {δ : Type} {first : Except ε α} {f : ε → δ} {value : α} :
    first.mapError f = .ok value ↔ first = .ok value := by
  cases first with
  | error e => simp [Except.mapError]
  | ok other => simp [Except.mapError]

theorem bind_of_ok {first : Except ε α} {value : α} (returns : first = .ok value)
    (next : α → Except ε β) : (first >>= next) = next value := by
  rw [returns]
  rfl

/-- A list of computations returns the results that each of them returns. -/
theorem mapM_eq_ok {f : α → Except ε β} {inputs : List α} {results : List β} :
    inputs.mapM f = .ok results ↔
      List.Forall₂ (fun input result => f input = .ok result) inputs results := by
  induction inputs generalizing results with
  | nil =>
      rw [List.forall₂_nil_left_iff, List.mapM_nil]
      constructor
      · intro returned
        cases returned
        rfl
      · rintro rfl
        rfl
  | cons input inputs ih =>
      rw [List.forall₂_cons_left_iff, List.mapM_cons]
      constructor
      · intro returned
        obtain ⟨result, here, returned⟩ := bind_eq_ok returned
        obtain ⟨later, rest, returned⟩ := bind_eq_ok returned
        cases returned
        exact ⟨result, later, here, ih.mp rest, rfl⟩
      · rintro ⟨result, later, here, rest, rfl⟩
        rw [here, bind_of_ok rfl, ih.mpr rest]
        rfl

/-- What a concrete computation returns can be decided, whatever it might throw. -/
theorem eq_ok_of_toOption {first : Except ε α} {value : α} (returns : first.toOption = some value) :
    first = .ok value := by
  cases first with
  | error e => cases returns
  | ok other =>
      cases returns
      rfl

end Conclave.Lib
