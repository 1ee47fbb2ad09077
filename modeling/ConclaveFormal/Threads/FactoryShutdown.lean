import ConclaveFormal.Threads.ThreadInvariant
import Mathlib.Data.Fintype.Basic
import Mathlib.Data.Set.Card

/-!
# Shutting the thread factory down

`shutdown` waits for the counter of running threads, and a host thread that has taken a task counts
itself only after it has answered the host.
-/

set_option autoImplicit false

namespace Conclave.Threads

open Conclave.Lib

section Definitions

variable {Call Thread : Type}

namespace HostPhase

/-- The thread has taken a task and has not counted itself. -/
def uncounted : HostPhase Call → Bool
  | popped _ | acknowledged _ => true
  | _ => false

/-- The thread has taken a task and is about to run it. -/
def committed : HostPhase Call → Bool
  | popped _ | acknowledged _ | counted _ => true
  | _ => false

/-- The thread has taken a task that has not finished. -/
def active : HostPhase Call → Bool
  | popped _ | acknowledged _ | counted _ | running _ => true
  | _ => false

theorem active_of_running {phase : HostPhase Call} {task : Call}
    (running : phase = .running task) : phase.active = true := by
  rw [running]
  rfl

end HostPhase

/-- No task runs when a `shutdown` has returned. -/
def Quiet (state : State Call Thread) : Prop :=
  state.shutdownReturned = true → ∀ host task, state.hosts host ≠ .running task

/-- `shutdown` does not return while a host thread with a task is not counted, and no host thread
takes a task when it has returned. -/
def Drained (state : State Call Thread) : Action Call Thread → Prop
  | .shutdown _ | .wakeShutdown _ =>
      state.runningThreads = 0 → ∀ host, (state.hosts host).uncounted = false
  | .popFront _ => state.shutdownReturned = false
  | _ => True

instance decidableDrained [Fintype Call] (state : State Call Thread) :
    (action : Action Call Thread) → Decidable (Drained state action)
  | .shutdown _ | .wakeShutdown _ => inferInstanceAs (Decidable (_ = 0 → ∀ _, _ = false))
  | .popFront _ => inferInstanceAs (Decidable (_ = false))
  | .isAlive _ | .pushBack _ | .requestThread _ | .requestFails _ _ | .answer _
  | .setStateOnStart _ | .attachFails _ _ | .completeRequest _ | .checkpoint _ | .runTask _
  | .taskReturns _ | .detach _ | .wait _ _ _ | .wake _ => instDecidableTrue

end Definitions

section Counter

variable {Call Thread : Type} {state next : State Call Thread} {action : Action Call Thread}

/-! ## The counter -/

def CountsThreads (state : State Call Thread) : Prop :=
  {host | (state.hosts host).isCounted = true}.encard = state.runningThreads

theorem countsThreads_initial : CountsThreads (State.initial Call Thread) := by
  simp [CountsThreads, State.initial, HostPhase.isCounted]

theorem CountsThreads.frame (counts : CountsThreads state)
    (running : next.runningThreads = state.runningThreads)
    (hosts : ∀ host, (next.hosts host).isCounted = (state.hosts host).isCounted) :
    CountsThreads next := by
  have same : {host | (next.hosts host).isCounted = true} =
      {host | (state.hosts host).isCounted = true} := by
    ext host
    simp only [Set.mem_ofPred_eq, hosts host]
  rw [CountsThreads, same, running]
  exact counts

theorem CountsThreads.none (counts : CountsThreads state) (zero : state.runningThreads = 0)
    (host : Call) : (state.hosts host).isCounted = false := by
  have empty : {host | (state.hosts host).isCounted = true} = ∅ := by
    rw [← Set.encard_eq_zero, counts, zero]
    rfl
  by_contra counted
  have inside : host ∈ {host | (state.hosts host).isCounted = true} := by
    simpa using counted
  rw [empty] at inside
  exact inside

variable [DecidableEq Call]

theorem CountsThreads.checkpoint (counts : CountsThreads state) {host : Call}
    {phase : HostPhase Call} (before : (state.hosts host).isCounted = false)
    (after : phase.isCounted = true) :
    CountsThreads ({ state with runningThreads := state.runningThreads + 1 }.setHost host
      phase) := by
  have added : {other | ((Function.update state.hosts host phase) other).isCounted = true} =
      insert host {other | (state.hosts other).isCounted = true} := by
    ext other
    by_cases same : other = host
    · simp [same, after]
    · simp [same]
  have fresh : host ∉ {other | (state.hosts other).isCounted = true} := by
    simp [before]
  refine (congrArg Set.encard added).trans ?_
  rw [Set.encard_insert_of_notMem fresh, counts]
  rfl

theorem CountsThreads.detach (counts : CountsThreads state) {host : Call}
    {phase : HostPhase Call} (before : (state.hosts host).isCounted = true)
    (after : phase.isCounted = false) :
    CountsThreads ({ state with runningThreads := state.runningThreads - 1 }.setHost host
      phase) := by
  have removed : {other | ((Function.update state.hosts host phase) other).isCounted = true} =
      {other | (state.hosts other).isCounted = true} \ {host} := by
    ext other
    by_cases same : other = host
    · simp [same, after]
    · simp [same]
  have member : host ∈ {other | (state.hosts other).isCounted = true} := before
  have one := Set.encard_sdiff_singleton_add_one member
  refine (congrArg Set.encard removed).trans ?_
  rw [counts] at one
  change _ = ((state.runningThreads - 1 : Nat) : ℕ∞)
  cases count : state.runningThreads with
  | zero => simp [count] at one
  | succ rest =>
      rw [count] at one
      exact ENat.add_left_injective_of_ne_top ENat.one_ne_top one

variable [DecidableEq Thread]

theorem CountsThreads.preserved (counts : CountsThreads state) (asked : Asked state)
    (stepped : Stepped state action next) : CountsThreads next := by
  cases stepped with
  | @requestThread call queued =>
      have unspawned : state.hosts call = .unspawned := asked.unspawned (by rw [queued]; rfl)
      refine counts.frame rfl (apply_update_of_eq HostPhase.isCounted ?_)
      simp [State.setCreate, unspawned, HostPhase.isCounted]
  | attachFails spawned failure =>
      refine counts.frame rfl (apply_update_of_eq HostPhase.isCounted ?_)
      rw [spawned]
      rfl
  | popFront spawned front =>
      refine counts.frame rfl (apply_update_of_eq HostPhase.isCounted ?_)
      rw [spawned]
      rfl
  | completeRequest popped =>
      refine counts.frame rfl (apply_update_of_eq HostPhase.isCounted ?_)
      rw [popped]
      rfl
  | checkpoint acknowledged =>
      refine counts.checkpoint ?_ rfl
      rw [acknowledged]
      rfl
  | runTask counted =>
      refine counts.frame rfl (apply_update_of_eq HostPhase.isCounted ?_)
      rw [counted]
      rfl
  | taskReturns running =>
      refine counts.frame rfl (apply_update_of_eq HostPhase.isCounted ?_)
      rw [running]
      rfl
  | detach completed =>
      refine counts.detach ?_ rfl
      rw [completed]
      rfl
  | _ => exact counts.frame rfl fun _ => rfl

end Counter

/-! ## Runs that drain -/

section Drained

variable {Call Thread : Type} {state next : State Call Thread} {action : Action Call Thread}

def Idle (state : State Call Thread) : Prop :=
  state.shutdownReturned = true → ∀ host, (state.hosts host).active = false

theorem idle_initial : Idle (State.initial Call Thread) := by
  intro impossible
  cases impossible

theorem Idle.quiet (idle : Idle state) : Quiet state := by
  intro returned host task running
  have inactive := idle returned host
  rw [HostPhase.active_of_running running] at inactive
  cases inactive

theorem Idle.frame (idle : Idle state)
    (returned : next.shutdownReturned = state.shutdownReturned)
    (hosts : ∀ host, (next.hosts host).active = true → (state.hosts host).active = true) :
    Idle next := by
  intro nextReturned host
  rw [returned] at nextReturned
  have before := idle nextReturned host
  by_contra busy
  rw [hosts host (by simpa using busy)] at before
  cases before

/-- A phase is active only if it is neither counted nor without a counter. -/
theorem active_of_parts {phase : HostPhase Call} (uncounted : phase.uncounted = false)
    (notCounted : phase.isCounted = false) : phase.active = false := by
  cases phase with
  | popped task | acknowledged task => cases uncounted
  | counted task | running task => cases notCounted
  | _ => rfl

variable [DecidableEq Call]

theorem Idle.host (idle : Idle state) {host : Call} {phase : HostPhase Call}
    (stays : phase.active = true → (state.hosts host).active = true) :
    Idle (state.setHost host phase) := by
  refine idle.frame rfl ?_
  intro other busy
  by_cases same : other = host
  · subst same
    simp only [State.setHost, Function.update_self] at busy
    exact stays busy
  · simpa [State.setHost, same] using busy

variable [DecidableEq Thread]

omit [DecidableEq Call] in
theorem Idle.awaitShutdown (idle : Idle state) (counts : CountsThreads state)
    (drained : state.runningThreads = 0 → ∀ host, (state.hosts host).uncounted = false)
    (thread : Thread) : Idle (state.awaitShutdown thread) := by
  intro returned host
  by_cases before : state.shutdownReturned = true
  · exact idle before host
  · have zero : state.runningThreads = 0 := by
      simpa [State.awaitShutdown, before] using returned
    exact active_of_parts (drained zero host) (counts.none zero host)

theorem Idle.preserved (idle : Idle state) (counts : CountsThreads state)
    (drained : Drained state action) (stepped : Stepped state action next) : Idle next := by
  cases stepped with
  | @requestThread call queued =>
      have requested : Idle (state.setCreate call .requested) := idle.frame rfl fun _ => id
      refine requested.host ?_
      intro impossible
      cases impossible
  | @attachFails host status spawned failure =>
      have failed : Idle (state.setHost host .failed) := by
        refine idle.host ?_
        intro impossible
        cases impossible
      exact failed.frame rfl fun _ => id
  | popFront spawned front =>
      intro returned
      have before : state.shutdownReturned = false := drained
      have same : state.shutdownReturned = true := returned
      rw [before] at same
      cases same
  | @completeRequest host task popped =>
      have acknowledged : Idle (state.setHost host (.acknowledged task)) := by
        refine idle.host ?_
        intro _
        rw [popped]
        rfl
      exact acknowledged.frame rfl fun _ => id
  | checkpoint acknowledged =>
      have more : Idle { state with runningThreads := state.runningThreads + 1 } :=
        idle.frame rfl fun _ => id
      refine more.host ?_
      intro _
      simp only [acknowledged]
      rfl
  | @runTask host task counted =>
      have running : Idle (state.setHost host (.running task)) := by
        refine idle.host ?_
        intro _
        rw [counted]
        rfl
      exact running.frame rfl fun _ => id
  | @taskReturns host task running =>
      have completed : Idle (state.setHost host (.completed task)) := by
        refine idle.host ?_
        intro impossible
        cases impossible
      exact completed.frame rfl fun _ => id
  | detach completed =>
      have fewer : Idle { state with runningThreads := state.runningThreads - 1 } :=
        idle.frame rfl fun _ => id
      refine fewer.host ?_
      intro impossible
      cases impossible
  | shutdown free =>
      have started : Idle { state with shutdownStarted := true } := idle.frame rfl fun _ => id
      exact started.awaitShutdown counts drained _
  | wakeShutdown waiting => exact idle.awaitShutdown counts drained _
  | _ => exact idle.frame rfl fun _ => id

end Drained

/-! ## Runs that do not -/

section Late

variable {Call Thread : Type} {state next : State Call Thread} {action : Action Call Thread}

/-- The thread will run its task although a `shutdown` has returned. -/
structure Late (state : State Call Thread) (host : Call) : Prop where
  returned : state.shutdownReturned = true
  committed : (state.hosts host).committed = true

theorem Late.frame {host : Call} (late : Late state host)
    (returned : state.shutdownReturned = true → next.shutdownReturned = true)
    (hosts : next.hosts host = state.hosts host) : Late next host := by
  refine ⟨returned late.returned, ?_⟩
  rw [hosts]
  exact late.committed

variable [DecidableEq Call]

/-- The thread goes on to `phase`, or another one does. -/
theorem Late.host {host other : Call} {phase : HostPhase Call} (late : Late state host)
    (goesOn : (state.hosts other).committed = true → phase.committed = true) :
    Late (state.setHost other phase) host := by
  refine ⟨late.returned, ?_⟩
  by_cases same : host = other
  · subst same
    simpa [State.setHost] using goesOn late.committed
  · simpa [State.setHost, same] using late.committed

variable [DecidableEq Thread]

theorem Late.preserved {host : Call} (late : Late state host) (asked : Asked state)
    (stepped : Stepped state action next) : Late next host ∨ ¬ Quiet next := by
  cases stepped with
  | @requestThread call queued =>
      have unspawned : state.hosts call = .unspawned := asked.unspawned (by rw [queued]; rfl)
      have requested : Late (state.setCreate call .requested) host := late.frame id rfl
      refine .inl (requested.host ?_)
      intro impossible
      rw [State.setCreate, unspawned] at impossible
      cases impossible
  | @attachFails other status spawned failure =>
      have failed : Late (state.setHost other .failed) host := by
        refine late.host ?_
        intro impossible
        rw [spawned] at impossible
        cases impossible
      exact .inl (failed.frame id rfl)
  | @popFront other task rest spawned front =>
      have popped : Late { state with queue := rest } host := late.frame id rfl
      exact .inl (popped.host fun _ => rfl)
  | @completeRequest other task popped =>
      have acknowledged : Late (state.setHost other (.acknowledged task)) host :=
        late.host fun _ => rfl
      exact .inl (acknowledged.frame id rfl)
  | checkpoint acknowledged =>
      have more : Late { state with runningThreads := state.runningThreads + 1 } host :=
        late.frame id rfl
      exact .inl (more.host fun _ => rfl)
  | @runTask other task counted =>
      by_cases same : host = other
      · subst same
        refine .inr ?_
        intro quiet
        refine quiet late.returned host task ?_
        simp [State.setHost, State.setState, State.setImpl, State.notifyAll]
      · exact .inl (late.frame id (Function.update_of_ne same ..))
  | @taskReturns other task running =>
      have completed : Late (state.setHost other (.completed task)) host := by
        refine late.host ?_
        intro impossible
        rw [running] at impossible
        cases impossible
      exact .inl (completed.frame id rfl)
  | detach completed =>
      have fewer : Late { state with runningThreads := state.runningThreads - 1 } host :=
        late.frame id rfl
      refine .inl (fewer.host ?_)
      intro impossible
      rw [completed] at impossible
      cases impossible
  | shutdown free =>
      refine .inl (late.frame ?_ rfl)
      intro returned
      simp [State.awaitShutdown, returned]
  | wakeShutdown waiting =>
      refine .inl (late.frame ?_ rfl)
      intro returned
      simp [State.awaitShutdown, returned]
  | _ => exact .inl (late.frame id rfl)

theorem late_of_fault (stepped : Stepped state action next) (fault : ¬ Drained state action) :
    ∃ host, Late next host := by
  have awaited : ∀ thread,
      ¬ (state.runningThreads = 0 → ∀ host, (state.hosts host).uncounted = false) →
      ∀ started : Bool, ∃ host,
        Late ({ state with shutdownStarted := started }.awaitShutdown thread) host := by
    intro thread open_ started
    obtain ⟨zero, found⟩ := Classical.not_imp.mp open_
    obtain ⟨host, uncounted⟩ := not_forall.mp found
    refine ⟨host, ?_, ?_⟩
    · simp [State.awaitShutdown, zero]
    · cases phase : state.hosts host with
      | popped task | acknowledged task => simp [State.awaitShutdown, phase, HostPhase.committed]
      | _ => simp [phase, HostPhase.uncounted] at uncounted
  cases stepped with
  | shutdown free => exact awaited _ fault true
  | wakeShutdown waiting => exact awaited _ fault state.shutdownStarted
  | @popFront host task rest spawned front =>
      refine ⟨host, ?_, ?_⟩
      · simpa [Drained, State.setHost] using fault
      · simp [State.setHost, HostPhase.committed]
  | _ => exact absurd trivial fault

end Late

/-! ## Every run -/

section Runs

variable {Call Thread : Type} [DecidableEq Call] [DecidableEq Thread]

theorem Idle.always {inputs : List (Action Call Thread)} {state : State Call Thread}
    (idle : Idle state) (counts : CountsThreads state) (asked : Asked state)
    (meets : Meets step Drained state inputs) : Always step Quiet state inputs := by
  have kept : ∀ {state : State Call Thread} {action next},
      Idle state ∧ CountsThreads state ∧ Asked state → Drained state action →
        step state action = some next → Idle next ∧ CountsThreads next ∧ Asked next := by
    intro state action next ⟨idle, counts, asked⟩ drained stepped
    have taken := stepped_of_step stepped
    exact ⟨idle.preserved counts drained taken, counts.preserved asked taken,
      asked.preserved taken⟩
  exact always_of_meets kept (fun invariant => invariant.1.quiet) ⟨idle, counts, asked⟩ meets

theorem Late.run {inputs : List (Action Call Thread)} {state final : State Call Thread}
    {host : Call} (late : Late state host) (asked : Asked state)
    (always : Always step Quiet state inputs) (ran : run step state inputs = some final) :
    Late final host := by
  induction inputs generalizing state with
  | nil =>
      cases ran
      exact late
  | cons action rest ih =>
      obtain ⟨next, stepped, onward⟩ := run_cons ran
      have taken := stepped_of_step stepped
      have later := (always_cons.mp always).2 next stepped
      rcases late.preserved asked taken with still | loud
      · exact ih still (asked.preserved taken) later onward
      · exact absurd (later [] rest next rfl rfl) loud

theorem meets_drained {inputs : List (Action Call Thread)} {state final : State Call Thread}
    (asked : Asked state) (always : Always step Quiet state inputs)
    (ran : run step state inputs = some final)
    (settled : ∀ host, (final.hosts host).committed = false) :
    Meets step Drained state inputs := by
  induction inputs generalizing state with
  | nil => trivial
  | cons action rest ih =>
      obtain ⟨next, stepped, onward⟩ := run_cons ran
      have taken := stepped_of_step stepped
      have later := (always_cons.mp always).2 next stepped
      refine .cons ?_ stepped (ih (asked.preserved taken) later onward)
      by_contra fault
      obtain ⟨host, late⟩ := late_of_fault taken fault
      have committed := (late.run (asked.preserved taken) later onward).committed
      rw [settled host] at committed
      cases committed

/-- A run that drains is quiet after every `shutdown`; and where every thread has got on with its
task, a run is quiet only if it drains. -/
theorem shutdown_iff (inputs : List (Action Call Thread)) :
    (Meets step Drained (State.initial Call Thread) inputs →
        Always step Quiet (State.initial Call Thread) inputs) ∧
      ∀ final, run step (State.initial Call Thread) inputs = some final →
        (∀ host, (final.hosts host).committed = false) →
        Always step Quiet (State.initial Call Thread) inputs →
          Meets step Drained (State.initial Call Thread) inputs := by
  refine ⟨idle_initial.always countsThreads_initial asked_initial, ?_⟩
  intro final ran settled always
  exact meets_drained asked_initial always ran settled

def taskThenShutdown : List (Action Unit Unit) :=
  [.isAlive (), .pushBack (), .requestThread (), .popFront (), .completeRequest (), .answer (),
    .setStateOnStart (), .checkpoint (), .shutdown (), .runTask (), .taskReturns (), .detach (),
    .wakeShutdown ()]

theorem taskThenShutdown_quiet :
    Always step Quiet (State.initial Unit Unit) taskThenShutdown ∧
      Meets step Drained (State.initial Unit Unit) taskThenShutdown := by
  have quiet := (shutdown_iff taskThenShutdown).1 (by decide)
  exact ⟨quiet, (shutdown_iff taskThenShutdown).2 _ rfl (fun _ => rfl) quiet⟩

/-- `shutdown` is called between `ocall_complete_request_thread` and the `RunnableCheckpoint`. -/
def shutdownInWindow : List (Action Unit Unit) :=
  [.isAlive (), .pushBack (), .requestThread (), .popFront (), .completeRequest (),
    .shutdown (), .checkpoint (), .runTask ()]

theorem shutdownInWindow_not_quiet :
    ∃ state, run step (State.initial Unit Unit) shutdownInWindow = some state ∧
      state.shutdownReturned = true ∧ state.hosts () = .running () ∧ ¬ Quiet state :=
  ⟨_, rfl, rfl, rfl, fun quiet => quiet rfl () () rfl⟩

end Runs

end Conclave.Threads
