import Mathlib.Data.List.Basic

/-!
# Runs of a partial transition function

`step state input` is `none` where the input is not enabled.  A run executes its
inputs in order, and what every enabled step preserves holds along every run.
-/

set_option autoImplicit false

namespace Conclave.Lib

variable {σ ι : Type}

def run (step : σ → ι → Option σ) : σ → List ι → Option σ
  | state, [] => some state
  | state, input :: rest => (step state input).bind fun next => run step next rest

variable {step : σ → ι → Option σ}

theorem run_cons {state final : σ} {input : ι} {rest : List ι}
    (ran : run step state (input :: rest) = some final) :
    ∃ next, step state input = some next ∧ run step next rest = some final :=
  Option.bind_eq_some_iff.mp ran

/-- Every step of the run meets the condition in the state it is taken in. -/
def Meets (step : σ → ι → Option σ) (condition : σ → ι → Prop) : σ → List ι → Prop
  | _, [] => True
  | state, input :: rest =>
      condition state input ∧
        ∀ next, step state input = some next → Meets step condition next rest

instance decidableMeets {condition : σ → ι → Prop}
    [∀ state input, Decidable (condition state input)] :
    (state : σ) → (inputs : List ι) → Decidable (Meets step condition state inputs)
  | _, [] => isTrue trivial
  | state, input :: rest =>
      match found : step state input with
      | none => decidable_of_iff (condition state input) (by simp [Meets, found])
      | some next =>
          have : Decidable (Meets step condition next rest) := decidableMeets next rest
          decidable_of_iff (condition state input ∧ Meets step condition next rest)
            (by simp [Meets, found])

theorem Meets.cons {condition : σ → ι → Prop} {state next : σ} {input : ι} {rest : List ι}
    (holds : condition state input) (stepped : step state input = some next)
    (later : Meets step condition next rest) : Meets step condition state (input :: rest) := by
  refine ⟨holds, ?_⟩
  intro other otherStep
  rw [stepped] at otherStep
  cases otherStep
  exact later

theorem Meets.of_forall {condition : σ → ι → Prop} {inputs : List ι} {state : σ}
    (always : ∀ input ∈ inputs, ∀ state, condition state input) :
    Meets step condition state inputs := by
  induction inputs generalizing state with
  | nil => trivial
  | cons input rest ih =>
      refine ⟨always input List.mem_cons_self state, ?_⟩
      intro next _
      exact ih fun other member => always other (List.mem_cons_of_mem _ member)

theorem Meets.append {condition : σ → ι → Prop} {first later : List ι} {state middle : σ}
    (before : Meets step condition state first) (ran : run step state first = some middle)
    (after : Meets step condition middle later) :
    Meets step condition state (first ++ later) := by
  induction first generalizing state with
  | nil =>
      cases ran
      exact after
  | cons input rest ih =>
      obtain ⟨next, stepped, ran⟩ := run_cons ran
      exact .cons before.1 stepped (ih (before.2 next stepped) ran)

theorem Meets.and {first second : σ → ι → Prop} {inputs : List ι} {state : σ}
    (left : Meets step first state inputs) (right : Meets step second state inputs) :
    Meets step (fun state input => first state input ∧ second state input) state inputs := by
  induction inputs generalizing state with
  | nil => trivial
  | cons input rest ih =>
      refine ⟨⟨left.1, right.1⟩, ?_⟩
      intro next stepped
      exact ih (left.2 next stepped) (right.2 next stepped)

/-- A run whose steps all meet one condition meets what follows from it. -/
theorem Meets.imp {invariant : σ → Prop} {first second : σ → ι → Prop}
    (preserved : ∀ {state input next}, invariant state → first state input →
      step state input = some next → invariant next)
    (implies : ∀ {state input}, invariant state → first state input → second state input)
    {inputs : List ι} {state : σ} (meets : Meets step first state inputs)
    (holds : invariant state) : Meets step second state inputs := by
  induction inputs generalizing state with
  | nil => trivial
  | cons input rest ih =>
      refine ⟨implies holds meets.1, ?_⟩
      intro next stepped
      exact ih (meets.2 next stepped) (preserved holds meets.1 stepped)

/-- Two conditions that agree wherever the invariant holds, which the steps that meet them
preserve, are met by the same runs. -/
theorem Meets.congr {invariant : σ → Prop} {first second : σ → ι → Prop}
    (preserved : ∀ {state input next}, invariant state → second state input →
      step state input = some next → invariant next)
    (agree : ∀ {state input}, invariant state → (first state input ↔ second state input))
    {inputs : List ι} {state : σ} (holds : invariant state) :
    Meets step first state inputs ↔ Meets step second state inputs := by
  constructor
  · intro meets
    apply meets.imp ?_ (fun holds => (agree holds).mp) holds
    intro state input next holds here stepped
    exact preserved holds ((agree holds).mp here) stepped
  · intro meets
    exact meets.imp preserved (fun holds => (agree holds).mpr) holds

theorem exists_run_of_total (total : ∀ state input, (step state input).isSome) (state : σ)
    (inputs : List ι) : ∃ final, run step state inputs = some final := by
  induction inputs generalizing state with
  | nil => exact ⟨state, rfl⟩
  | cons input rest ih =>
      obtain ⟨next, stepped⟩ := Option.isSome_iff_exists.mp (total state input)
      obtain ⟨final, ran⟩ := ih next
      refine ⟨final, ?_⟩
      rw [run, stepped]
      exact ran

/-- `P` holds in every state that the run goes through. -/
def Always (step : σ → ι → Option σ) (P : σ → Prop) (state : σ) (inputs : List ι) : Prop :=
  ∀ first later reached, inputs = first ++ later → run step state first = some reached →
    P reached

theorem always_nil {P : σ → Prop} {state : σ} : Always step P state [] ↔ P state := by
  constructor
  · intro always
    exact always [] [] state rfl rfl
  · intro holds first later reached split ran
    obtain ⟨rfl, -⟩ := List.append_eq_nil_iff.mp split.symm
    cases ran
    exact holds

theorem always_cons {P : σ → Prop} {state : σ} {input : ι} {rest : List ι} :
    Always step P state (input :: rest) ↔
      P state ∧ ∀ next, step state input = some next → Always step P next rest := by
  constructor
  · intro always
    refine ⟨always [] (input :: rest) state rfl rfl, ?_⟩
    intro next stepped first later reached split ran
    apply always (input :: first) later reached
    · rw [split, List.cons_append]
    · rw [run, stepped]
      exact ran
  · rintro ⟨holds, onward⟩ first later reached split ran
    cases first with
    | nil =>
        cases ran
        exact holds
    | cons head first =>
        obtain ⟨rfl, rest_eq⟩ := List.cons_eq_cons.mp split
        obtain ⟨next, stepped, ran⟩ := run_cons ran
        exact onward next stepped first later reached rest_eq ran

theorem always_and {P Q : σ → Prop} {state : σ} {inputs : List ι} :
    Always step (fun state => P state ∧ Q state) state inputs ↔
      Always step P state inputs ∧ Always step Q state inputs := by
  constructor
  · intro always
    refine ⟨?_, ?_⟩
    · intro first later reached split ran
      exact (always first later reached split ran).1
    · intro first later reached split ran
      exact (always first later reached split ran).2
  · rintro ⟨left, right⟩ first later reached split ran
    exact ⟨left first later reached split ran, right first later reached split ran⟩

theorem always_of_meets {invariant P : σ → Prop} {condition : σ → ι → Prop}
    (preserved : ∀ {state input next}, invariant state → condition state input →
      step state input = some next → invariant next)
    (implies : ∀ {state}, invariant state → P state) {inputs : List ι} {state : σ}
    (holds : invariant state) (meets : Meets step condition state inputs) :
    Always step P state inputs := by
  induction inputs generalizing state with
  | nil => exact always_nil.mpr (implies holds)
  | cons input rest ih =>
      refine always_cons.mpr ⟨implies holds, ?_⟩
      intro next stepped
      exact ih (preserved holds meets.1 stepped) (meets.2 next stepped)

theorem run_invariant_of_meets {invariant : σ → Prop} {condition : σ → ι → Prop}
    (preserved : ∀ {state input next}, invariant state → condition state input →
      step state input = some next → invariant next)
    {inputs : List ι} {state final : σ} (holds : invariant state)
    (meets : Meets step condition state inputs)
    (ran : run step state inputs = some final) : invariant final :=
  always_of_meets preserved id holds meets inputs [] final (List.append_nil inputs).symm ran

theorem run_invariant {invariant : σ → Prop}
    (preserved : ∀ {state input next}, invariant state → step state input = some next →
      invariant next)
    {inputs : List ι} {state final : σ} (holds : invariant state)
    (ran : run step state inputs = some final) : invariant final := by
  have unconditional : Meets step (fun _ _ => True) state inputs :=
    .of_forall fun _ _ _ => trivial
  exact run_invariant_of_meets (fun holds _ stepped => preserved holds stepped) holds
    unconditional ran

/-- Where one step keeps `P` exactly if it meets the condition, a whole run does. -/
theorem meets_iff_always {invariant P : σ → Prop} {allowed condition : σ → ι → Prop}
    (preserved : ∀ {state input next}, invariant state → allowed state input →
      step state input = some next → invariant next)
    (exactly : ∀ {state input next}, invariant state → allowed state input → P state →
      step state input = some next → (condition state input ↔ P next))
    {inputs : List ι} {state final : σ} (holds : invariant state) (start : P state)
    (permitted : Meets step allowed state inputs) (ran : run step state inputs = some final) :
    Meets step condition state inputs ↔ Always step P state inputs := by
  induction inputs generalizing state with
  | nil => exact iff_of_true trivial (always_nil.mpr start)
  | cons input rest ih =>
      obtain ⟨next, stepped, ran⟩ := run_cons ran
      have one := exactly holds permitted.1 start stepped
      have kept := preserved holds permitted.1 stepped
      rw [always_cons]
      constructor
      · rintro ⟨here, later⟩
        refine ⟨start, ?_⟩
        intro other otherStep
        rw [stepped] at otherStep
        cases otherStep
        exact (ih kept (one.mp here) (permitted.2 next stepped) ran).mp (later next stepped)
      · rintro ⟨-, onward⟩
        have reached : P next := onward next stepped [] rest next rfl rfl
        refine .cons (one.mpr reached) stepped ?_
        exact (ih kept reached (permitted.2 next stepped) ran).mpr (onward next stepped)

/-! ## Runs without a choice -/

/-- From the first state to the last one only one step is possible at a time, and `P` holds all
the way. -/
inductive OnlyPath (step : σ → ι → Option σ) (P : σ → Prop) : σ → σ → Prop where
  | refl {state : σ} (holds : P state) : OnlyPath step P state state
  | next {state next final : σ} {input : ι} (holds : P state)
      (stepped : step state input = some next)
      (only : ∀ other, other ≠ input → step state other = none)
      (later : OnlyPath step P next final) : OnlyPath step P state final

namespace OnlyPath

variable {P : σ → Prop} {first middle final : σ}

theorem trans (path : OnlyPath step P first middle) (later : OnlyPath step P middle final) :
    OnlyPath step P first final := by
  induction path with
  | refl holds => exact later
  | next holds stepped only _ ih => exact .next holds stepped only (ih later)

theorem exists_run (path : OnlyPath step P first final) :
    ∃ inputs, run step first inputs = some final := by
  induction path with
  | refl holds => exact ⟨[], rfl⟩
  | @next state next final input holds stepped only later ih =>
      obtain ⟨inputs, ran⟩ := ih
      refine ⟨input :: inputs, ?_⟩
      rw [run, stepped]
      exact ran

/-- If the path ends where no step is possible, then all runs stay on it. -/
theorem of_run (path : OnlyPath step P first final) (stuck : ∀ input, step final input = none)
    {inputs : List ι} {state : σ} (ran : run step first inputs = some state) :
    P state ∧ ∃ later, run step state later = some final := by
  induction path generalizing inputs with
  | refl holds =>
      cases inputs with
      | nil =>
          cases ran
          exact ⟨holds, [], rfl⟩
      | cons input rest =>
          obtain ⟨next, stepped, -⟩ := run_cons ran
          rw [stuck input] at stepped
          cases stepped
  | @next start next final input holds stepped only later ih =>
      cases inputs with
      | nil =>
          cases ran
          obtain ⟨inputs, ran⟩ := later.exists_run
          refine ⟨holds, input :: inputs, ?_⟩
          rw [run, stepped]
          exact ran
      | cons other rest =>
          obtain ⟨after, otherStep, ran⟩ := run_cons ran
          by_cases same : other = input
          · rw [same, stepped] at otherStep
            cases otherStep
            exact ih stuck ran
          · rw [only other same] at otherStep
            cases otherStep

end OnlyPath

theorem run_append {state : σ} {first second : List ι} :
    run step state (first ++ second) =
      (run step state first).bind fun next => run step next second := by
  induction first generalizing state with
  | nil => rfl
  | cons input rest ih =>
      rw [List.cons_append, run, run]
      cases step state input with
      | none => rfl
      | some next => exact ih

end Conclave.Lib
