import ConclaveFormal.Lib.Transition
import Mathlib.Logic.Function.Basic

/-!
# Calls under a mutex

A call is a tree of steps, which works on the state that all threads share and locks the mutex that
guards it.  The mutex does not count: a thread that locks it again waits for itself.  What keeps a
call from that is that it locks the mutex only where it has let go of it.
-/

set_option autoImplicit false

namespace Conclave.Lib

inductive Ending (Exc α : Type) where
  | returned (value : α)
  | threw (e : Exc)
  | crashed
  deriving DecidableEq, Repr

inductive Program (State Exc α : Type) where
  | ends (ending : Ending Exc α)
  | work (change : State → State) (next : State → Program State Exc α)
  | lock (next : Program State Exc α)
  | unlock (next : Program State Exc α)

namespace Program

variable {State Exc α β : Type}

def bind : Program State Exc α → (α → Program State Exc β) → Program State Exc β
  | ends (.returned value), onward => onward value
  | ends (.threw e), _ => ends (.threw e)
  | ends .crashed, _ => ends .crashed
  | work change next, onward => work change fun state => (next state).bind onward
  | lock next, onward => lock (next.bind onward)
  | unlock next, onward => unlock (next.bind onward)

instance : Monad (Program State Exc) where
  pure value := ends (.returned value)
  bind := bind

/-- One piece of work, with what becomes of the call and the state after it. -/
def act (run : State → Ending Exc α × State) : Program State Exc α :=
  work (fun state => (run state).2) fun state => ends (run state).1

def discard (program : Program State Exc α) : Program State Exc Unit :=
  program.bind fun _ => ends (.returned ())

/-- The mutex is let go of on return, and where an exception passes. -/
def releasing : Program State Exc α → Program State Exc α
  | ends (.returned value) => unlock (ends (.returned value))
  | ends (.threw e) => unlock (ends (.threw e))
  | ends .crashed => ends .crashed
  | work change next => work change fun state => (next state).releasing
  | lock next => lock next.releasing
  | unlock next => unlock next.releasing

/-- The rest of the scope of a `std::lock_guard`. -/
def lockGuard (body : Program State Exc α) : Program State Exc α := lock body.releasing

/-- On some path through the call its thread locks the mutex while it has it.  Between two pieces of
work other threads may have changed the state in any way. -/
def Relocks : Bool → Program State Exc α → Prop
  | _, ends _ => False
  | held, work _ next => ∃ state, Relocks held (next state)
  | held, lock next => held = true ∨ Relocks true next
  | _, unlock next => Relocks false next

/-- The mutex is locked only where the thread does not have it, let go of only where it has it, and
in the end it is as it should be. -/
def Disciplined (final : Bool) : Bool → Program State Exc α → Prop
  | _, ends .crashed => True
  | held, ends _ => held = final
  | held, work _ next => ∀ state, Disciplined final held (next state)
  | held, lock next => held = false ∧ Disciplined final true next
  | held, unlock next => held = true ∧ Disciplined final false next

/-! ## One call -/

section Calls

variable {held final : Bool} {program : Program State Exc α}

theorem Disciplined.not_relocks (disciplined : program.Disciplined final held) :
    ¬ program.Relocks held := by
  induction program generalizing held with
  | ends ending => exact id
  | work change next ih =>
      rintro ⟨state, relocks⟩
      exact ih state (disciplined state) relocks
  | lock next ih =>
      rintro (again | relocks)
      · rw [disciplined.1] at again
        cases again
      · exact ih disciplined.2 relocks
  | unlock next ih => exact ih disciplined.2

theorem disciplined_ends (ending : Ending Exc α) :
    (ends ending : Program State Exc α).Disciplined held held := by
  cases ending with
  | returned value => exact rfl
  | threw e => exact rfl
  | crashed => trivial

theorem disciplined_act (run : State → Ending Exc α × State) :
    (act run).Disciplined held held := by
  intro state
  exact disciplined_ends (run state).1

theorem Disciplined.bind {onward : α → Program State Exc β}
    (disciplined : program.Disciplined final held)
    (later : ∀ value, (onward value).Disciplined final final) :
    (program.bind onward).Disciplined final held := by
  induction program generalizing held with
  | ends ending =>
      cases ending with
      | returned value =>
          obtain rfl : held = final := disciplined
          exact later value
      | threw e => exact disciplined
      | crashed => trivial
  | work change next ih =>
      intro state
      exact ih state (disciplined state)
  | lock next ih => exact ⟨disciplined.1, ih disciplined.2⟩
  | unlock next ih => exact ⟨disciplined.1, ih disciplined.2⟩

theorem Disciplined.discard (disciplined : program.Disciplined final held) :
    program.discard.Disciplined final held :=
  disciplined.bind fun _ => rfl

theorem Disciplined.releasing (disciplined : program.Disciplined true held) :
    program.releasing.Disciplined false held := by
  induction program generalizing held with
  | ends ending =>
      cases ending with
      | returned value => exact ⟨disciplined, rfl⟩
      | threw e => exact ⟨disciplined, rfl⟩
      | crashed => trivial
  | work change next ih =>
      intro state
      exact ih state (disciplined state)
  | lock next ih => exact ⟨disciplined.1, ih disciplined.2⟩
  | unlock next ih => exact ⟨disciplined.1, ih disciplined.2⟩

/-- The scope may be entered without the mutex, if what is in it does not lock it again. -/
theorem disciplined_lockGuard (disciplined : program.Disciplined true true) :
    (lockGuard program).Disciplined false false :=
  ⟨rfl, disciplined.releasing⟩

theorem Relocks.bind (relocks : program.Relocks held) (onward : α → Program State Exc β) :
    (program.bind onward).Relocks held := by
  induction program generalizing held with
  | ends ending => exact relocks.elim
  | work change next ih =>
      obtain ⟨state, relocks⟩ := relocks
      exact ⟨state, ih state relocks⟩
  | lock next ih => exact relocks.imp id fun later => ih later
  | unlock next ih => exact ih relocks

theorem Relocks.releasing (relocks : program.Relocks held) :
    program.releasing.Relocks held := by
  induction program generalizing held with
  | ends ending => exact relocks.elim
  | work change next ih =>
      obtain ⟨state, relocks⟩ := relocks
      exact ⟨state, ih state relocks⟩
  | lock next ih => exact relocks.imp id fun later => ih later
  | unlock next ih => exact ih relocks

theorem relocks_lockGuard_held (program : Program State Exc α) :
    (lockGuard program).Relocks true :=
  .inl rfl

/-- A scope in a scope. -/
theorem relocks_lockGuard (relocks : program.Relocks true) : (lockGuard program).Relocks false :=
  .inr relocks.releasing

end Calls

end Program

/-! ## Threads -/

/-- The thread that has the mutex, what it guards, and how far the call of each thread has got. -/
structure Threads (Thread State Exc : Type) where
  owner : Option Thread
  shared : State
  calls : Thread → Option (Program State Exc Unit)

/-- A thread begins a call, or does the next step of the one that it is in. -/
inductive ThreadStep (Thread Call : Type) where
  | call (thread : Thread) (call : Call)
  | proceed (thread : Thread)
  deriving DecidableEq

namespace Threads

open Program

variable {Thread Call State Exc : Type}

/-- No call is going on. -/
def idle (shared : State) : Threads Thread State Exc where
  owner := none
  shared := shared
  calls := fun _ => none

variable [DecidableEq Thread]

def setCall (threads : Threads Thread State Exc) (thread : Thread)
    (call : Option (Program State Exc Unit)) : Threads Thread State Exc :=
  { threads with calls := Function.update threads.calls thread call }

/-- A thread that finds the mutex locked waits, and a call that has crashed goes no further. -/
def proceed (threads : Threads Thread State Exc) (thread : Thread) :
    Option (Threads Thread State Exc) :=
  match threads.calls thread with
  | none | some (ends .crashed) => none
  | some (ends _) => some (threads.setCall thread none)
  | some (work change next) =>
      some { threads.setCall thread (some (next threads.shared)) with
        shared := change threads.shared }
  | some (lock next) =>
      if threads.owner = none then
        some { threads.setCall thread (some next) with owner := some thread }
      else none
  | some (unlock next) =>
      if threads.owner = some thread then
        some { threads.setCall thread (some next) with owner := none }
      else none

def step (code : Call → Program State Exc Unit) (threads : Threads Thread State Exc) :
    ThreadStep Thread Call → Option (Threads Thread State Exc)
  | .call thread call =>
      if threads.calls thread = none then some (threads.setCall thread (some (code call)))
      else none
  | .proceed thread => threads.proceed thread

/-- The thread waits for a mutex that it has itself. -/
def SelfWaits (threads : Threads Thread State Exc) (thread : Thread) : Prop :=
  ∃ next, threads.calls thread = some (lock next) ∧ threads.owner = some thread

/-- A thread without a call does not have the mutex. -/
def CallInLine (held : Bool) : Option (Program State Exc Unit) → Prop
  | none => held = false
  | some program => program.Disciplined false held

def InLine (threads : Threads Thread State Exc) : Prop :=
  ∀ thread, CallInLine (decide (threads.owner = some thread)) (threads.calls thread)

variable {code : Call → Program State Exc Unit} {threads next : Threads Thread State Exc}
  {thread : Thread}

theorem inLine_idle (shared : State) : (idle shared : Threads Thread State Exc).InLine := by
  intro thread
  exact decide_eq_false (by simp [idle])

theorem InLine.not_selfWaits (inLine : threads.InLine) (thread : Thread) :
    ¬ threads.SelfWaits thread := by
  rintro ⟨next, waits, owner⟩
  have own := inLine thread
  rw [waits, owner] at own
  exact absurd own.1 (by simp)

/-- One thread goes on, and the others have the mutex or not, as before. -/
theorem InLine.setCall {owner : Option Thread} {call : Option (Program State Exc Unit)}
    (inLine : threads.InLine) (shared : State)
    (own : CallInLine (decide (owner = some thread)) call)
    (others : ∀ other, other ≠ thread →
      (owner = some other ↔ threads.owner = some other)) :
    InLine { threads.setCall thread call with owner := owner, shared := shared } := by
  intro other
  change CallInLine (decide (owner = some other)) (Function.update threads.calls thread call other)
  by_cases same : other = thread
  · rw [same, Function.update_self]
    exact own
  · rw [Function.update_of_ne same, decide_eq_decide.mpr (others other same)]
    exact inLine other

theorem InLine.proceed (inLine : threads.InLine) (stepped : threads.proceed thread = some next) :
    next.InLine := by
  have own := inLine thread
  rw [Threads.proceed] at stepped
  split at stepped
  · cases stepped
  · cases stepped
  · next ending notCrashed found =>
      cases stepped
      rw [found] at own
      apply inLine.setCall threads.shared _ fun _ _ => Iff.rfl
      cases ending with
      | returned value => exact own
      | threw e => exact own
      | crashed => exact absurd rfl notCrashed
  · next change onward found =>
      cases stepped
      rw [found] at own
      exact inLine.setCall _ (own threads.shared) fun _ _ => Iff.rfl
  · next onward found =>
      split at stepped
      · next free =>
          cases stepped
          rw [found] at own
          apply inLine.setCall
          · rw [decide_eq_true rfl]
            exact own.2
          · intro other different
            rw [free]
            exact iff_of_false (fun same => different (Option.some.inj same).symm) (by simp)
      · cases stepped
  · next onward found =>
      split at stepped
      · next held =>
          cases stepped
          rw [found] at own
          apply inLine.setCall
          · exact own.2
          · intro other different
            rw [held]
            exact iff_of_false (by simp) fun same => different (Option.some.inj same).symm
      · cases stepped

theorem InLine.step {input : ThreadStep Thread Call} (inLine : threads.InLine)
    (disciplined : ∀ thread call, input = .call thread call → (code call).Disciplined false false)
    (stepped : threads.step code input = some next) : next.InLine := by
  cases input with
  | proceed thread => exact inLine.proceed stepped
  | call thread call =>
      rw [Threads.step] at stepped
      split at stepped
      · next none =>
          cases stepped
          have own := inLine thread
          rw [none] at own
          apply inLine.setCall threads.shared _ fun _ _ => Iff.rfl
          rw [own]
          exact disciplined thread call rfl
      · cases stepped

/-- As long as no call is begun that locks the mutex while it has it, no thread ever waits for
itself. -/
theorem always_not_selfWaits {inputs : List (ThreadStep Thread Call)} (shared : State)
    (disciplined : ∀ thread call, .call thread call ∈ inputs →
      (code call).Disciplined false false) :
    Always (step code) (fun threads => ∀ thread, ¬ threads.SelfWaits thread) (idle shared)
      inputs := by
  have meets : Meets (step code) (fun (_ : Threads Thread State Exc) input =>
      ∀ thread call, input = .call thread call → (code call).Disciplined false false)
      (idle shared) inputs := by
    apply Meets.of_forall
    rintro _ member _ thread call rfl
    exact disciplined thread call member
  exact always_of_meets (fun inLine allowed stepped => inLine.step allowed stepped)
    InLine.not_selfWaits (inLine_idle shared) meets

/-! ## A thread that waits for itself -/

theorem calls_setCall {other : Thread} (different : other ≠ thread)
    (call : Option (Program State Exc Unit)) :
    (threads.setCall thread call).calls other = threads.calls other :=
  Function.update_of_ne different _ _

/-- What another thread does leaves the one that has the mutex where it is. -/
theorem proceed_frame {other : Thread} (different : other ≠ thread)
    (owner : threads.owner = some other) (stepped : threads.proceed thread = some next) :
    next.calls other = threads.calls other ∧ next.owner = some other := by
  rw [proceed] at stepped
  split at stepped
  · cases stepped
  · cases stepped
  · cases stepped
    exact ⟨calls_setCall different _, owner⟩
  · cases stepped
    exact ⟨calls_setCall different _, owner⟩
  · rw [owner, if_neg (by simp)] at stepped
    cases stepped
  · rw [owner, if_neg fun same => different (Option.some.inj same)] at stepped
    cases stepped

theorem SelfWaits.proceed_eq_none (waits : threads.SelfWaits thread) :
    threads.proceed thread = none := by
  obtain ⟨onward, found, owner⟩ := waits
  rw [proceed, found, owner]
  exact if_neg (by simp)

/-- Nothing ends the wait. -/
theorem SelfWaits.step {input : ThreadStep Thread Call} (waits : threads.SelfWaits thread)
    (stepped : threads.step code input = some next) : next.SelfWaits thread := by
  obtain ⟨onward, found, owner⟩ := waits
  cases input with
  | proceed moved =>
      by_cases same : thread = moved
      · rw [Threads.step, ← same, SelfWaits.proceed_eq_none ⟨onward, found, owner⟩] at stepped
        cases stepped
      · obtain ⟨calls, still⟩ := proceed_frame same owner stepped
        exact ⟨onward, calls.trans found, still⟩
  | call caller call =>
      rw [Threads.step] at stepped
      split at stepped
      · next none =>
          cases stepped
          have different : thread ≠ caller := by
            rintro rfl
            rw [found] at none
            cases none
          exact ⟨onward, (calls_setCall different _).trans found, owner⟩
      · cases stepped

theorem SelfWaits.run {inputs : List (ThreadStep Thread Call)} (waits : threads.SelfWaits thread)
    (ran : Lib.run (Threads.step code) threads inputs = some next) : next.SelfWaits thread :=
  run_invariant (fun waits stepped => SelfWaits.step waits stepped) waits ran

theorem calls_setCall_self (call : Option (Program State Exc Unit)) :
    (threads.setCall thread call).calls thread = call :=
  Function.update_self _ _ _

/-- A call that locks the mutex twice comes to wait as soon as it has locked it once. -/
theorem selfWaits_of_lock_lock {call : Call} {onward : Program State Exc Unit}
    (twice : code call = lock (lock onward))
    (ran : Lib.run (Threads.step code) threads [.call thread call, .proceed thread] = some next) :
    next.SelfWaits thread := by
  obtain ⟨begun, begins, ran⟩ := run_cons ran
  obtain ⟨locked, locks, stays⟩ := run_cons ran
  cases stays
  rw [Threads.step] at begins
  split at begins
  · cases begins
    rw [Threads.step, proceed, calls_setCall_self, twice] at locks
    simp only at locks
    split at locks
    · cases locks
      exact ⟨onward, calls_setCall_self _, rfl⟩
    · cases locks
  · cases begins

/-- Whoever comes to lock the mutex waits too. -/
theorem SelfWaits.blocks (waits : threads.SelfWaits thread) {other : Thread}
    {onward : Program State Exc Unit} (comes : threads.calls other = some (lock onward)) :
    threads.proceed other = none := by
  obtain ⟨_, -, owner⟩ := waits
  rw [proceed, comes, owner]
  exact if_neg (by simp)

end Threads

end Conclave.Lib
