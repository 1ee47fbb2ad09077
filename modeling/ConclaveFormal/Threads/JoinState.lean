import ConclaveFormal.Threads.ThreadInvariant

/-!
# Joining a thread

`create` writes the state of its thread when the host request has returned, whatever the host
thread has done by then.
-/

set_option autoImplicit false

namespace Conclave.Threads

open Conclave.Lib

section Definitions

variable {Call Thread : Type} [DecidableEq Call] [DecidableEq Thread]

/-- No state goes back. -/
def Forward (state : State Call Thread) (action : Action Call Thread) : Prop :=
  ∀ next call, step state action = some next →
    (state.impls call).state.value ≤ (next.impls call).state.value

omit [DecidableEq Call] [DecidableEq Thread]

/-- `join` returns in its first turn, and nobody who has called it before is still asleep. -/
def Joinable (state : State Call Thread) : Prop :=
  ∀ call, Finished state call → (state.creates call).recorded.isSome = true →
    (state.impls call).satisfies .join = true ∧
      ∀ thread waiter, state.waiters thread = some waiter → waiter.call = call →
        waiter.notified = true

/-- Success is recorded before the task has finished, and no task is begun of which a failure has
been recorded. -/
def InTime (state : State Call Thread) : Action Call Thread → Prop
  | .setStateOnStart call =>
      state.creates call = .answered sgxSuccess → ¬ Finished state call
  | .runTask host => ∀ task status, state.hosts host = .counted task →
      (state.creates task).recorded = some status → status = sgxSuccess
  | _ => True

/-- Nobody can wait for a thread whose `create` has not returned. -/
def Waiting (state : State Call Thread) : Prop :=
  ∀ thread waiter, state.waiters thread = some waiter →
    (state.creates waiter.call).recorded.isSome = true

end Definitions

section Inversions

variable {Call Thread : Type} [DecidableEq Call] [DecidableEq Thread]
  {state next : State Call Thread}

/-! ## Moving forward -/

omit [DecidableEq Call] [DecidableEq Thread] in
theorem value_le (value : ThreadState) : value.value ≤ 2 := by
  cases value with
  | CREATED => decide
  | STARTED => decide
  | COMPLETED => decide

omit [DecidableEq Call] [DecidableEq Thread] in
/-- A task that has not finished has not been completed by its thread. -/
theorem ImplFollows.value_le_started (follows : ImplFollows state) {call : Call}
    (unrecorded : (state.creates call).recorded = none) (unfinished : ¬ Finished state call) :
    (state.impls call).state.value ≤ 1 := by
  by_cases begun : Begun state call
  · obtain ⟨host, value, written⟩ := begun
    rw [follows.written host call value unrecorded written]
    cases value with
    | CREATED => decide
    | STARTED => decide
    | COMPLETED => exact absurd ⟨host, written⟩ unfinished
  · rw [follows.unwritten call begun, unrecorded]
    decide

omit [DecidableEq Call] [DecidableEq Thread] in
theorem Inv.unbegun_counted (inv : Inv state) {host task : Call}
    (counted : state.hosts host = .counted task) : ¬ Begun state task := by
  rintro ⟨other, value, written⟩
  have took : (state.hosts host).task = some task := by
    rw [counted]
    rfl
  have same := inv.jobs.unique other host task (HostPhase.task_of_wrote written) took
  rw [same, counted] at written
  cases written

theorem Inv.forward_setStateOnStart (inv : Inv state) (call : Call) :
    Forward state (.setStateOnStart call : Action Call Thread) ↔
      InTime state (.setStateOnStart call : Action Call Thread) := by
  refine ⟨?_, ?_⟩
  · intro forward answered finished
    obtain ⟨host, written⟩ := finished
    have unrecorded : (state.creates call).recorded = none := by
      rw [answered]
      rfl
    have stepped : step state (.setStateOnStart call) =
        some ((state.setCreate call (.returned sgxSuccess)).setImpl call
          (.setStateOnStart sgxSuccess)) := by
      simp only [step, answered]
    have moved := forward _ call stepped
    rw [inv.follows.written host call _ unrecorded written] at moved
    simp [State.setImpl, Impl.setStateOnStart, ThreadState.value] at moved
  · intro inTime next other stepped
    cases stepped_of_step stepped with
    | @setStateOnStart call status answered =>
        by_cases same : other = call
        · subst same
          have unrecorded : (state.creates other).recorded = none := by
            rw [answered]
            rfl
          by_cases success : status = sgxSuccess
          · subst success
            have low := inv.follows.value_le_started unrecorded (inTime answered)
            simpa [State.setImpl, Impl.setStateOnStart, ThreadState.value] using low
          · have low := value_le (state.impls other).state
            simpa [State.setImpl, Impl.setStateOnStart, success, ThreadState.value] using low
        · simp [State.setImpl, State.setCreate, same]

theorem Inv.forward_runTask (inv : Inv state) (host : Call) :
    Forward state (.runTask host : Action Call Thread) ↔
      InTime state (.runTask host : Action Call Thread) := by
  refine ⟨?_, ?_⟩
  · intro forward task status counted recorded
    have before := inv.follows.unwritten task (inv.unbegun_counted counted)
    have stepped : step state (.runTask host) =
        some ((state.setHost host (.running task)).setState task .STARTED) := by
      simp only [step, counted]
    have moved := forward _ task stepped
    rw [before, recorded] at moved
    by_contra failure
    simp [createdState, Impl.setStateOnStart, failure, State.setState, State.notifyAll,
      State.setImpl, Impl.setState, ThreadState.value] at moved
  · intro inTime next other stepped
    cases stepped_of_step stepped with
    | @runTask host task counted =>
        by_cases same : other = task
        · subst same
          rw [inv.follows.unwritten other (inv.unbegun_counted counted)]
          cases recorded : (state.creates other).recorded with
          | none => simp [createdState, ThreadState.value]
          | some status =>
              have success := inTime other status counted recorded
              simp [createdState, Impl.setStateOnStart, success, State.setState, State.notifyAll,
                State.setImpl, Impl.setState, ThreadState.value]
        · simp [State.setState, State.notifyAll, State.setImpl, State.setHost, same]

theorem Inv.forward_iff (inv : Inv state) (action : Action Call Thread) :
    Forward state action ↔ InTime state action := by
  cases action with
  | setStateOnStart call => exact inv.forward_setStateOnStart call
  | runTask host => exact inv.forward_runTask host
  | taskReturns host =>
      refine iff_of_true ?_ trivial
      intro next other stepped
      cases stepped_of_step stepped with
      | @taskReturns host task running =>
          by_cases same : other = task
          · subst same
            have low := value_le (state.impls other).state
            simpa [State.setState, State.notifyAll, State.setImpl, Impl.setState,
              ThreadState.value] using low
          · simp [State.setState, State.notifyAll, State.setImpl, State.setHost, same]
  | pushBack call =>
      refine iff_of_true ?_ trivial
      intro next other stepped
      cases stepped_of_step stepped with
      | pushBack alive =>
          by_cases same : other = call
          · subst same
            have fresh := inv.jobs.unbegun (.inl (by rw [alive]; rfl))
            rw [inv.follows.unwritten other fresh, alive]
            exact Nat.zero_le _
          · simp [State.setImpl, State.setCreate, same]
  | _ =>
      refine iff_of_true ?_ trivial
      intro next other stepped
      cases stepped_of_step stepped
      exact Nat.le_refl _

end Inversions

/-! ## Joining -/

section Joins

variable {Call Thread : Type} {state next : State Call Thread} {action : Action Call Thread}

structure Joins (state : State Call Thread) : Prop where
  waiting : Waiting state
  joinable : Joinable state

theorem joins_initial : Joins (State.initial Call Thread) := by
  refine ⟨?_, ?_⟩
  · intro thread waiter impossible
    cases impossible
  · rintro call ⟨host, impossible⟩
    cases impossible

theorem Joins.frame (joins : Joins state) (same : Unwritten state next)
    (waiters : next.waiters = state.waiters) : Joins next := by
  refine ⟨?_, ?_⟩
  · intro thread waiter found
    rw [waiters] at found
    rw [same.recorded]
    exact joins.waiting thread waiter found
  · rintro call ⟨host, written⟩ recorded
    rw [same.wrote host] at written
    rw [same.recorded] at recorded
    rw [same.impls, waiters]
    exact joins.joinable call ⟨host, written⟩ recorded

variable [DecidableEq Call]

/-- A new status is recorded for a thread that nobody waits for. -/
theorem Joins.record (joins : Joins state) {call : Call} {status : SgxStatus}
    (answered : state.creates call = .answered status)
    (inTime : status = sgxSuccess → ¬ Finished state call) :
    Joins ((state.setCreate call (.returned status)).setImpl call (.setStateOnStart status)) := by
  refine ⟨?_, ?_⟩
  · intro thread waiter found
    by_cases same : waiter.call = call
    · simp [State.setCreate, State.setImpl, same, CreatePhase.recorded]
    · simpa [State.setCreate, State.setImpl, same] using joins.waiting thread waiter found
  · intro other finished recorded
    by_cases same : other = call
    · subst same
      have failure : status ≠ sgxSuccess := fun success => inTime success finished
      refine ⟨?_, ?_⟩
      · simp [State.setImpl, Impl.satisfies, Impl.setStateOnStart, failure]
      · intro thread waiter found own
        have known := joins.waiting thread waiter found
        rw [own, answered] at known
        cases known
    · simp only [State.setImpl, State.setCreate, Function.update_of_ne same] at recorded ⊢
      exact joins.joinable other finished recorded

/-- `set_state` wakes everybody who waits for the thread. -/
theorem Joins.write (joins : Joins state) {host task : Call} {phase : HostPhase Call}
    {value : ThreadState} (wrote : phase.wrote = some (task, value))
    (done : Finished (state.setHost host phase) task → value = .COMPLETED) :
    Joins ((state.setHost host phase).setState task value) := by
  have waiterOf : ∀ thread waiter,
      ((state.setHost host phase).setState task value).waiters thread = some waiter →
      ∃ before, state.waiters thread = some before ∧ before.call = waiter.call ∧
        (before.notified = true → waiter.notified = true) ∧
        (waiter.call = task → waiter.notified = true) := by
    intro thread waiter found
    obtain ⟨before, present, after⟩ := Option.map_eq_some_iff.mp found
    refine ⟨before, present, ?_⟩
    by_cases same : before.call = task
    · rw [if_pos same] at after
      subst after
      exact ⟨rfl, fun _ => rfl, fun _ => rfl⟩
    · rw [if_neg same] at after
      subst after
      exact ⟨rfl, id, fun own => absurd own same⟩
  refine ⟨?_, ?_⟩
  · intro thread waiter found
    obtain ⟨before, present, same, _⟩ := waiterOf thread waiter found
    rw [← same]
    exact joins.waiting thread before present
  · intro other finished recorded
    by_cases same : other = task
    · subst same
      refine ⟨?_, ?_⟩
      · simp [State.setState, State.notifyAll, State.setImpl, Impl.setState, Impl.satisfies,
          done finished]
      · intro thread waiter found own
        obtain ⟨_, _, _, _, woken⟩ := waiterOf thread waiter found
        exact woken own
    · have before : Finished state other := by
        obtain ⟨worker, written⟩ := finished
        refine ⟨worker, ?_⟩
        by_cases here : worker = host
        · have own : (((state.setHost host phase).setState task value).hosts worker).wrote =
              some (task, value) := by
            simp [State.setHost, State.setState, State.setImpl, State.notifyAll, here, wrote]
          rw [own] at written
          cases written
          exact absurd rfl same
        · rw [← written]
          simp [State.setHost, State.setState, State.setImpl, State.notifyAll, here]
      obtain ⟨satisfied, woken⟩ := joins.joinable other before recorded
      refine ⟨?_, ?_⟩
      · simpa [State.setState, State.setHost, State.notifyAll, State.setImpl, same] using satisfied
      · intro thread waiter found own
        obtain ⟨before, present, sameCall, kept, _⟩ := waiterOf thread waiter found
        exact kept (woken thread before present (sameCall.trans own))

variable [DecidableEq Thread]

omit [DecidableEq Call] [DecidableEq Thread] in
/-- A completed thread is not waited for. -/
theorem Impl.satisfies_of_join {impl : Impl} (completed : impl.satisfies .join = true)
    (wait : Wait) : impl.satisfies wait = true := by
  have state : impl.state = .COMPLETED := eq_of_beq completed
  cases wait with
  | start => simp [Impl.satisfies, state]
  | join => exact completed

omit [DecidableEq Call] in
theorem Joins.await (joins : Joins state) (thread : Thread) {call : Call} (wait : Wait)
    (recorded : (state.creates call).recorded.isSome = true) :
    Joins (state.await thread call wait) := by
  have others : ∀ other, other ≠ thread →
      (state.await thread call wait).waiters other = state.waiters other := by
    intro other apart
    exact Function.update_of_ne apart ..
  have own : (state.await thread call wait).waiters thread =
      if (state.impls call).satisfies wait then none else some ⟨call, wait, false⟩ := by
    simp [State.await]
  refine ⟨?_, ?_⟩
  · intro other waiter found
    by_cases same : other = thread
    · rw [same, own] at found
      by_cases satisfied : (state.impls call).satisfies wait = true
      · rw [if_pos satisfied] at found
        cases found
      · rw [if_neg satisfied] at found
        cases found
        exact recorded
    · rw [others other same] at found
      exact joins.waiting other waiter found
  · intro finishedCall finished known
    obtain ⟨satisfied, woken⟩ := joins.joinable finishedCall finished known
    refine ⟨satisfied, ?_⟩
    intro other waiter found target
    by_cases same : other = thread
    · rw [same, own] at found
      by_cases done : (state.impls call).satisfies wait = true
      · rw [if_pos done] at found
        cases found
      · rw [if_neg done] at found
        cases found
        simp only at target
        subst target
        exact absurd (Impl.satisfies_of_join satisfied wait) done
    · rw [others other same] at found
      exact woken other waiter found target

theorem Joins.preserved (joins : Joins state) (inv : Inv state) (inTime : InTime state action)
    (stepped : Stepped state action next) : Joins next := by
  have unwritten := inv.asked.unwritten stepped
  cases stepped with
  | @pushBack call alive =>
      have fresh : ¬ Begun state call := inv.jobs.unbegun (.inl (by rw [alive]; rfl))
      refine ⟨?_, ?_⟩
      · intro thread waiter found
        have known := joins.waiting thread waiter found
        by_cases same : waiter.call = call
        · rw [same, alive] at known
          cases known
        · simpa [State.setImpl, State.setCreate, same] using known
      · intro other finished recorded
        have apart : other ≠ call := by
          rintro rfl
          obtain ⟨host, written⟩ := finished
          exact fresh ⟨host, _, written⟩
        simp only [State.setImpl, State.setCreate, Function.update_of_ne apart] at recorded ⊢
        exact joins.joinable other finished recorded
  | setStateOnStart answered =>
      refine joins.record answered ?_
      rintro rfl
      exact inTime answered
  | @runTask host task counted =>
      refine joins.write rfl ?_
      rintro ⟨other, written⟩
      by_cases same : other = host
      · simp [State.setHost, same, HostPhase.wrote] at written
      · simp only [State.setHost, Function.update_of_ne same] at written
        exact absurd ⟨other, _, written⟩ (inv.unbegun_counted counted)
  | taskReturns running => exact joins.write rfl fun _ => rfl
  | @wait thread wait call status returned free =>
      refine joins.await thread wait ?_
      rw [returned]
      rfl
  | @wake thread waiter waiting =>
      exact joins.await thread waiter.wait (joins.waiting thread waiter waiting)
  | _ => exact joins.frame (unwritten rfl) rfl

end Joins

/-! ## Every run -/

section Runs

variable {Call Thread : Type} [DecidableEq Call] [DecidableEq Thread]

/-- A thread that calls `join` on such a task, or goes on in it, is out of it. -/
theorem Joinable.returns {state next : State Call Thread} (joinable : Joinable state)
    {call : Call} (finished : Finished state call)
    (recorded : (state.creates call).recorded.isSome = true) (thread : Thread)
    (stepped : step state (.wait thread .join call) = some next ∨
      ∃ notified, state.waiters thread = some ⟨call, .join, notified⟩ ∧
        step state (.wake thread) = some next) : next.waiters thread = none := by
  have satisfied := (joinable call finished recorded).1
  rcases stepped with entered | ⟨notified, waiting, woken⟩
  · cases stepped_of_step entered with
    | wait returned free => simp [State.await, satisfied]
  · cases stepped_of_step woken with
    | wake found =>
        rw [waiting] at found
        cases found
        simp [State.await, satisfied]

theorem Joins.always {inputs : List (Action Call Thread)} {state : State Call Thread}
    (inv : Inv state) (joins : Joins state) (meets : Meets step InTime state inputs) :
    Always step Joinable state inputs := by
  have kept : ∀ {state : State Call Thread} {action next}, Inv state ∧ Joins state →
      InTime state action → step state action = some next → Inv next ∧ Joins next := by
    intro state action next ⟨inv, joins⟩ inTime stepped
    have taken := stepped_of_step stepped
    exact ⟨inv.preserved taken, joins.preserved inv inTime taken⟩
  exact always_of_meets kept (fun invariant => invariant.2.joinable) ⟨inv, joins⟩ meets

/-- A run is in time exactly if no state goes back, and then `join` does not block. -/
theorem join_iff (inputs : List (Action Call Thread)) :
    Meets step InTime (State.initial Call Thread) inputs ↔
      Meets step Forward (State.initial Call Thread) inputs ∧
        Always step Joinable (State.initial Call Thread) inputs := by
  have preserved : ∀ {state : State Call Thread} {action next}, Inv state →
      InTime state action → step state action = some next → Inv next := by
    intro state action next inv _ stepped
    exact inv.preserved (stepped_of_step stepped)
  have agree : ∀ {state : State Call Thread} {action}, Inv state →
      (Forward state action ↔ InTime state action) := by
    intro state action inv
    exact inv.forward_iff action
  have same : Meets step Forward (State.initial Call Thread) inputs ↔
      Meets step InTime (State.initial Call Thread) inputs :=
    Meets.congr preserved agree inv_initial
  refine ⟨?_, ?_⟩
  · intro meets
    exact ⟨same.mpr meets, joins_initial.always inv_initial meets⟩
  · rintro ⟨forward, _⟩
    exact same.mp forward

/-- The task is over before the host request returns. -/
def shortTask : List (Action Unit Unit) :=
  [.isAlive (), .pushBack (), .requestThread (), .popFront (), .completeRequest (),
    .checkpoint (), .runTask (), .taskReturns (), .detach (), .answer ()]

/-- The thread goes back from `COMPLETED` to `STARTED`, and whoever joins it sleeps for good. -/
theorem shortTask_goes_back :
    ∃ before after, run step (State.initial Unit Unit) shortTask = some before ∧
      step before (.setStateOnStart ()) = some after ∧
      (before.impls ()).state = .COMPLETED ∧ (after.impls ()).state = .STARTED ∧
      ¬ Forward before (.setStateOnStart ()) ∧ ¬ Joinable after := by
  refine ⟨_, _, rfl, rfl, rfl, rfl, ?_, ?_⟩
  · intro forward
    have moved := forward _ () rfl
    exact absurd moved (by decide)
  · intro joinable
    have satisfied := (joinable () ⟨(), rfl⟩ rfl).1
    cases satisfied

end Runs

end Conclave.Threads
