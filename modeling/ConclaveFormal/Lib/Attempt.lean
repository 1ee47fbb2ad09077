import Mathlib.Init

/-!
# Computations whose state survives an exception

`Attempt σ ε α` is a method of an object with fields `σ` that returns an `α` or
throws an `ε`.  Unlike a state transformer over `Except`, what was changed
before the exception stays changed.
-/

set_option autoImplicit false

namespace Conclave.Lib

def Attempt (σ ε α : Type) : Type := σ → Except ε α × σ

namespace Attempt

variable {σ ε α β : Type}

instance : Monad (Attempt σ ε) where
  pure value := fun state => (.ok value, state)
  bind attempt next := fun state =>
    match attempt state with
    | (.ok value, state) => next value state
    | (.error e, state) => (.error e, state)

def throw (e : ε) : Attempt σ ε α := fun state => (.error e, state)

def get : Attempt σ ε σ := fun state => (.ok state, state)

def modify (change : σ → σ) : Attempt σ ε Unit := fun state => (.ok (), change state)

/-- `try … catch`: the handler runs in the state the exception left behind. -/
def handle (attempt : Attempt σ ε α) (handler : ε → Attempt σ ε α) : Attempt σ ε α :=
  fun state =>
    match attempt state with
    | (.ok value, state) => (.ok value, state)
    | (.error e, state) => handler e state

/-- `try … finally`, with what both blocks return. -/
def tryFinally (body : Attempt σ ε α) (last : Attempt σ ε β) : Attempt σ ε (α × β) :=
  fun state =>
    match body state with
    | (.ok value, state) => (do return (value, ← last)) state
    | (.error e, state) => (do let _ ← last; throw e) state

/-- `try … finally` as a statement that returns what its first block returns. -/
def ensuring (body : Attempt σ ε α) (last : Attempt σ ε Unit) : Attempt σ ε α := do
  let (value, _) ← tryFinally body last
  return value

/-- A method of a part of the object. -/
def within {τ : Type} (part : σ → τ) (put : τ → σ → σ) (attempt : Attempt τ ε α) :
    Attempt σ ε α :=
  fun state => ((attempt (part state)).1, put (attempt (part state)).2 state)

@[simp] theorem pure_apply (value : α) (state : σ) :
    (pure value : Attempt σ ε α) state = (.ok value, state) := rfl

@[simp] theorem throw_apply (e : ε) (state : σ) :
    (throw e : Attempt σ ε α) state = (.error e, state) := rfl

@[simp] theorem get_bind (next : σ → Attempt σ ε β) (state : σ) :
    (get >>= next) state = next state state := rfl

@[simp] theorem modify_apply (change : σ → σ) (state : σ) :
    (modify change : Attempt σ ε Unit) state = (.ok (), change state) := rfl

@[simp] theorem pure_bind_apply (value : α) (next : α → Attempt σ ε β) (state : σ) :
    ((pure value : Attempt σ ε α) >>= next) state = next value state := rfl

@[simp] theorem modify_bind (change : σ → σ) (next : Unit → Attempt σ ε β) (state : σ) :
    (modify change >>= next) state = next () (change state) := rfl

theorem bind_ok {attempt : Attempt σ ε α} {next : α → Attempt σ ε β} {state after : σ}
    {value : α} (ran : attempt state = (.ok value, after)) :
    (attempt >>= next) state = next value after := by
  simp only [bind, ran]

theorem bind_error {attempt : Attempt σ ε α} {next : α → Attempt σ ε β} {state after : σ}
    {e : ε} (ran : attempt state = (.error e, after)) :
    (attempt >>= next) state = (.error e, after) := by
  simp only [bind, ran]

/-- A sequence depends on the state through its first part only. -/
theorem bind_congr {attempt : Attempt σ ε α} (next : α → Attempt σ ε β) {first second : σ}
    (same : attempt first = attempt second) :
    (attempt >>= next) first = (attempt >>= next) second := by
  simp only [bind, same]

theorem handle_ok {attempt : Attempt σ ε α} {handler : ε → Attempt σ ε α} {state after : σ}
    {value : α} (ran : attempt state = (.ok value, after)) :
    handle attempt handler state = (.ok value, after) := by
  simp only [handle, ran]

theorem handle_error {attempt : Attempt σ ε α} {handler : ε → Attempt σ ε α} {state after : σ}
    {e : ε} (ran : attempt state = (.error e, after)) :
    handle attempt handler state = handler e after := by
  simp only [handle, ran]

theorem tryFinally_ok {body : Attempt σ ε α} {last : Attempt σ ε β} {state middle after : σ}
    {value : α} {other : β} (ran : body state = (.ok value, middle))
    (ended : last middle = (.ok other, after)) :
    tryFinally body last state = (.ok (value, other), after) := by
  simp only [tryFinally, ran]
  exact bind_ok ended

theorem tryFinally_error {body : Attempt σ ε α} {last : Attempt σ ε β} {state middle after : σ}
    {e : ε} {other : β} (ran : body state = (.error e, middle))
    (ended : last middle = (.ok other, after)) :
    tryFinally body last state = (.error e, after) := by
  simp only [tryFinally, ran]
  exact bind_ok ended

theorem ensuring_eq {body : Attempt σ ε α} {last : Attempt σ ε Unit} {state middle after : σ}
    {outcome : Except ε α} (ran : body state = (outcome, middle))
    (ended : last middle = (.ok (), after)) : ensuring body last state = (outcome, after) := by
  cases outcome with
  | ok value =>
      rw [ensuring, bind_ok (tryFinally_ok ran ended)]
      rfl
  | error e =>
      rw [ensuring]
      exact bind_error (tryFinally_error ran ended)

theorem within_eq {τ : Type} (part : σ → τ) (put : τ → σ → σ) {attempt : Attempt τ ε α} {state : σ}
    {inner : τ} {outcome : Except ε α} (ran : attempt (part state) = (outcome, inner)) :
    within part put attempt state = (outcome, put inner state) := by
  simp only [within, ran]

theorem within_inverted {τ : Type} {part : σ → τ} {put : τ → σ → σ} {attempt : Attempt τ ε α}
    {state after : σ} {outcome : Except ε α}
    (ran : within part put attempt state = (outcome, after)) :
    ∃ inner, attempt (part state) = (outcome, inner) ∧ after = put inner state := by
  simp only [within, Prod.mk.injEq] at ran
  obtain ⟨rfl, rfl⟩ := ran
  exact ⟨(attempt (part state)).2, rfl, rfl⟩

/-- A sequence that returned has run its first part to a value. -/
theorem bind_eq_ok {attempt : Attempt σ ε α} {next : α → Attempt σ ε β} {state final : σ}
    {result : β} (ran : (attempt >>= next) state = (.ok result, final)) :
    ∃ value after, attempt state = (.ok value, after) ∧
      next value after = (.ok result, final) := by
  cases first : attempt state with
  | mk outcome after =>
      cases outcome with
      | error e =>
          rw [bind_error first] at ran
          cases ran
      | ok value =>
          rw [bind_ok first] at ran
          exact ⟨value, after, rfl, ran⟩

/-- A sequence that threw did so in its first part or in its second. -/
theorem bind_eq_error {attempt : Attempt σ ε α} {next : α → Attempt σ ε β} {state final : σ}
    {e : ε} (ran : (attempt >>= next) state = (.error e, final)) :
    attempt state = (.error e, final) ∨
      ∃ value after, attempt state = (.ok value, after) ∧
        next value after = (.error e, final) := by
  cases first : attempt state with
  | mk outcome after =>
      cases outcome with
      | error thrown =>
          rw [bind_error first] at ran
          cases ran
          exact Or.inl rfl
      | ok value =>
          rw [bind_ok first] at ran
          exact Or.inr ⟨value, after, rfl, ran⟩

/-! ## What every value a method returns satisfies -/

def Returns (P : α → Prop) (attempt : Attempt σ ε α) : Prop :=
  ∀ state value after, attempt state = (.ok value, after) → P value

theorem Returns.pure {P : α → Prop} {value : α} (holds : P value) :
    Returns P (Pure.pure value : Attempt σ ε α) := by
  intro state other after ran
  cases ran
  exact holds

theorem Returns.bind {P : β → Prop} {attempt : Attempt σ ε α} {next : α → Attempt σ ε β}
    (later : ∀ value, Returns P (next value)) : Returns P (attempt >>= next) := by
  intro state result final ran
  obtain ⟨value, after, _, ran⟩ := bind_eq_ok ran
  exact later value after result final ran

/-! ## What every exception a method throws satisfies -/

def Raises (P : ε → Prop) (attempt : Attempt σ ε α) : Prop :=
  ∀ state e after, attempt state = (.error e, after) → P e

section Raises

variable {P : ε → Prop}

theorem Raises.pure (value : α) : Raises P (Pure.pure value : Attempt σ ε α) := by
  intro state e after ran
  cases ran

theorem Raises.throw {e : ε} (holds : P e) : Raises P (Attempt.throw e : Attempt σ ε α) := by
  intro state other after ran
  cases ran
  exact holds

theorem Raises.modify (change : σ → σ) : Raises P (Attempt.modify change : Attempt σ ε Unit) := by
  intro state e after ran
  cases ran

theorem Raises.bind {attempt : Attempt σ ε α} {next : α → Attempt σ ε β}
    (first : Raises P attempt) (second : ∀ value, Raises P (next value)) :
    Raises P (attempt >>= next) := by
  intro state e final ran
  rcases bind_eq_error ran with thrown | ⟨value, after, _, thrown⟩
  · exact first state e final thrown
  · exact second value after e final thrown

/-- The exceptions of the handler are all that is left. -/
theorem Raises.handle (attempt : Attempt σ ε α) {handler : ε → Attempt σ ε α}
    (handled : ∀ e, Raises P (handler e)) : Raises P (Attempt.handle attempt handler) := by
  intro state e final ran
  cases first : attempt state with
  | mk outcome after =>
      cases outcome with
      | ok value =>
          rw [handle_ok first] at ran
          cases ran
      | error thrown =>
          rw [handle_error first] at ran
          exact handled thrown after e final ran

end Raises

/-! ## What every run of a method leaves related -/

/-- Whether it returns or throws, the method ends in a state related to the one
it started from. -/
def Preserves (R : σ → σ → Prop) (attempt : Attempt σ ε α) : Prop :=
  ∀ state, R state (attempt state).2

section Preserves

variable {R : σ → σ → Prop}

theorem Preserves.pure (refl : ∀ state, R state state) (value : α) :
    Preserves R (Pure.pure value : Attempt σ ε α) :=
  fun state => refl state

theorem Preserves.throw (refl : ∀ state, R state state) (e : ε) :
    Preserves R (Attempt.throw e : Attempt σ ε α) :=
  fun state => refl state

theorem Preserves.get (refl : ∀ state, R state state) :
    Preserves R (Attempt.get : Attempt σ ε σ) :=
  fun state => refl state

theorem Preserves.modify {change : σ → σ} (related : ∀ state, R state (change state)) :
    Preserves R (Attempt.modify change : Attempt σ ε Unit) :=
  fun state => related state

theorem Preserves.bind (trans : ∀ a b c, R a b → R b c → R a c)
    {attempt : Attempt σ ε α} {next : α → Attempt σ ε β} (first : Preserves R attempt)
    (second : ∀ value, Preserves R (next value)) : Preserves R (attempt >>= next) := by
  intro state
  have start := first state
  cases ran : attempt state with
  | mk outcome after =>
      rw [ran] at start
      cases outcome with
      | ok value =>
          rw [bind_ok ran]
          exact trans _ _ _ start (second value after)
      | error e =>
          rw [bind_error ran]
          exact start

theorem Preserves.handle (trans : ∀ a b c, R a b → R b c → R a c)
    {attempt : Attempt σ ε α} {handler : ε → Attempt σ ε α} (first : Preserves R attempt)
    (second : ∀ e, Preserves R (handler e)) : Preserves R (Attempt.handle attempt handler) := by
  intro state
  have start := first state
  cases ran : attempt state with
  | mk outcome after =>
      rw [ran] at start
      cases outcome with
      | ok value =>
          rw [handle_ok ran]
          exact start
      | error e =>
          rw [handle_error ran]
          exact trans _ _ _ start (second e after)

theorem Preserves.after {attempt : Attempt σ ε α} {state after : σ} {outcome : Except ε α}
    (preserves : Preserves R attempt) (ran : attempt state = (outcome, after)) : R state after := by
  have related := preserves state
  rwa [ran] at related

/-- The same for one state, where the second part may rely on what the first one returned. -/
theorem related_bind (trans : ∀ a b c, R a b → R b c → R a c) {attempt : Attempt σ ε α}
    {next : α → Attempt σ ε β} {base state : σ} (first : R base (attempt state).2)
    (second : ∀ value after, attempt state = (.ok value, after) → R after (next value after).2) :
    R base ((attempt >>= next) state).2 := by
  cases ran : attempt state with
  | mk outcome after =>
      rw [ran] at first
      cases outcome with
      | ok value =>
          rw [bind_ok ran]
          exact trans _ _ _ first (second value after ran)
      | error e =>
          rw [bind_error ran]
          exact first

/-- A method of a part changes nothing but the part. -/
theorem Preserves.within {τ : Type} {S : τ → τ → Prop} {part : σ → τ} {put : τ → σ → σ}
    {attempt : Attempt τ ε α} (inner : Preserves S attempt)
    (lift : ∀ state after, S (part state) after → R state (put after state)) :
    Preserves R (Attempt.within part put attempt) :=
  fun state => lift state _ (inner (part state))

end Preserves

/-! ## Fields a method does not look at -/

/-- The method neither reads nor writes what `change` changes. -/
def Ignores (change : σ → σ) (attempt : Attempt σ ε α) : Prop :=
  ∀ state, attempt (change state) = ((attempt state).1, change (attempt state).2)

section Ignores

variable {change : σ → σ}

theorem Ignores.pure (value : α) : Ignores change (Pure.pure value : Attempt σ ε α) :=
  fun _ => rfl

theorem Ignores.throw (e : ε) : Ignores change (Attempt.throw e : Attempt σ ε α) :=
  fun _ => rfl

theorem Ignores.modify {update : σ → σ}
    (commute : ∀ state, update (change state) = change (update state)) :
    Ignores change (Attempt.modify update : Attempt σ ε Unit) := by
  intro state
  simp only [modify_apply, commute]

theorem Ignores.bind {attempt : Attempt σ ε α} {next : α → Attempt σ ε β}
    (first : Ignores change attempt) (second : ∀ value, Ignores change (next value)) :
    Ignores change (attempt >>= next) := by
  intro state
  have start := first state
  cases ran : attempt state with
  | mk outcome after =>
      rw [ran] at start
      cases outcome with
      | ok value =>
          rw [bind_ok start, bind_ok ran]
          exact second value after
      | error e => rw [bind_error start, bind_error ran]

theorem Ignores.handle {attempt : Attempt σ ε α} {handler : ε → Attempt σ ε α}
    (first : Ignores change attempt) (second : ∀ e, Ignores change (handler e)) :
    Ignores change (Attempt.handle attempt handler) := by
  intro state
  have start := first state
  cases ran : attempt state with
  | mk outcome after =>
      rw [ran] at start
      cases outcome with
      | ok value => rw [handle_ok start, handle_ok ran]
      | error e =>
          rw [handle_error start, handle_error ran]
          exact second e after

end Ignores

/-! ## Both outcomes -/

/-- From `state` the method returns with `returns`, or throws with `raises`. -/
def Ends (attempt : Attempt σ ε α) (state : σ) (returns : α → σ → Prop)
    (raises : ε → σ → Prop) : Prop :=
  match attempt state with
  | (.ok value, after) => returns value after
  | (.error e, after) => raises e after

section Ends

variable {attempt : Attempt σ ε α} {next : α → Attempt σ ε β} {state after : σ}
  {returns : α → σ → Prop} {raises : ε → σ → Prop}

theorem Ends.of_ok {value : α} (ran : attempt state = (.ok value, after))
    (holds : returns value after) : Ends attempt state returns raises := by
  rw [Ends, ran]
  exact holds

theorem Ends.of_error {e : ε} (ran : attempt state = (.error e, after))
    (holds : raises e after) : Ends attempt state returns raises := by
  rw [Ends, ran]
  exact holds

theorem Ends.ok {value : α} (ends : Ends attempt state returns raises)
    (ran : attempt state = (.ok value, after)) : returns value after := by
  rwa [Ends, ran] at ends

theorem Ends.error {e : ε} (ends : Ends attempt state returns raises)
    (ran : attempt state = (.error e, after)) : raises e after := by
  rwa [Ends, ran] at ends

theorem Ends.imp {returns' : α → σ → Prop} {raises' : ε → σ → Prop}
    (ends : Ends attempt state returns raises)
    (onReturn : ∀ value after, returns value after → returns' value after)
    (onRaise : ∀ e after, raises e after → raises' e after) :
    Ends attempt state returns' raises' := by
  cases ran : attempt state with
  | mk outcome after =>
      cases outcome with
      | ok value => exact Ends.of_ok ran (onReturn value after (ends.ok ran))
      | error e => exact Ends.of_error ran (onRaise e after (ends.error ran))

theorem Ends.bind {returns : β → σ → Prop}
    (ends : Ends attempt state (fun value middle => Ends (next value) middle returns raises)
      raises) : Ends (attempt >>= next) state returns raises := by
  cases ran : attempt state with
  | mk outcome middle =>
      cases outcome with
      | ok value =>
          have later := ends.ok ran
          rw [Ends, bind_ok ran]
          exact later
      | error e => exact Ends.of_error (bind_error ran) (ends.error ran)

end Ends

end Attempt

end Conclave.Lib
