import ConclaveFormal.Lib.Transition

/-!
# What a run leaves alone

Some inputs of a run concern one object, and the others pass it by.  `forget` takes the object out
of a state.  Where the inputs that concern it change nothing else and the others do not see it, the
run without the object is the run of the others.
-/

set_option autoImplicit false

namespace Conclave.Lib

variable {σ ι : Type} {step : σ → ι → Option σ} {invariant : σ → Prop} {allowed : σ → ι → Prop}

section Forget

variable {concerns : ι → Prop} [DecidablePred concerns] {forget : σ → σ}

theorem run_forget
    (preserved : ∀ {state input next}, invariant state → allowed state input →
      step state input = some next → invariant next)
    (absorbed : ∀ {state input next}, invariant state → allowed state input → concerns input →
      step state input = some next → forget next = forget state)
    (commutes : ∀ {state input next}, invariant state → allowed state input → ¬concerns input →
      step state input = some next → step (forget state) input = some (forget next))
    {inputs : List ι} {state final : σ} (holds : invariant state)
    (meets : Meets step allowed state inputs) (ran : run step state inputs = some final) :
    run step (forget state) (inputs.filter fun input => ¬concerns input) =
      some (forget final) := by
  induction inputs generalizing state with
  | nil =>
      cases ran
      rfl
  | cons input rest ih =>
      obtain ⟨next, stepped, ran⟩ := run_cons ran
      have later := ih (preserved holds meets.1 stepped) (meets.2 next stepped) ran
      by_cases own : concerns input
      · rw [List.filter_cons_of_neg (by simpa using own), ← absorbed holds meets.1 own stepped]
        exact later
      · rw [List.filter_cons_of_pos (by simpa using own), run,
          commutes holds meets.1 own stepped, Option.bind_some]
        exact later

end Forget

section Latch

variable {sets clears : ι → Prop} {flag : σ → Prop}

/-- An input sets the flag, and none clears it afterwards. -/
def LeftSet (sets clears : ι → Prop) (inputs : List ι) : Prop :=
  ∃ before input after, inputs = before ++ input :: after ∧ sets input ∧
    ∀ later ∈ after, ¬clears later

theorem leftSet_cons {input : ι} {rest : List ι} :
    LeftSet sets clears (input :: rest) ↔
      (sets input ∧ ∀ later ∈ rest, ¬clears later) ∨ LeftSet sets clears rest := by
  constructor
  · rintro ⟨before, found, after, split, set, kept⟩
    cases before with
    | nil =>
        cases split
        exact Or.inl ⟨set, kept⟩
    | cons first before =>
        cases split
        exact Or.inr ⟨before, found, after, rfl, set, kept⟩
  · rintro (⟨set, kept⟩ | ⟨before, found, after, rfl, set, kept⟩)
    · exact ⟨[], input, rest, rfl, set, kept⟩
    · exact ⟨input :: before, found, after, rfl, set, kept⟩

theorem flag_run_iff
    (preserved : ∀ {state input next}, invariant state → allowed state input →
      step state input = some next → invariant next)
    (stepFlag : ∀ {state input next}, invariant state → allowed state input →
      step state input = some next → (flag next ↔ sets input ∨ flag state ∧ ¬clears input))
    {inputs : List ι} {state final : σ} (holds : invariant state)
    (meets : Meets step allowed state inputs) (ran : run step state inputs = some final) :
    flag final ↔
      LeftSet sets clears inputs ∨ flag state ∧ ∀ input ∈ inputs, ¬clears input := by
  induction inputs generalizing state with
  | nil =>
      cases ran
      have none : ¬LeftSet sets clears ([] : List ι) := by
        rintro ⟨before, input, after, split, -⟩
        cases before with
        | nil => cases split
        | cons first before => cases split
      simp [none]
  | cons input rest ih =>
      obtain ⟨next, stepped, ran⟩ := run_cons ran
      rw [ih (preserved holds meets.1 stepped) (meets.2 next stepped) ran,
        stepFlag holds meets.1 stepped, leftSet_cons, List.forall_mem_cons]
      tauto

end Latch

end Conclave.Lib
