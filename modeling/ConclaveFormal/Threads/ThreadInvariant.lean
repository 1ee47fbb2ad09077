import ConclaveFormal.Lib.JobQueue
import ConclaveFormal.Threads.EnclaveThread

/-!
# What holds of every interleaving of the thread factory

A queued task has been taken by no host thread and any other by exactly one.  Until its `create`
records the status, only the thread that runs a task writes its state.
-/

set_option autoImplicit false

namespace Conclave.Threads

open Conclave.Lib

variable {Call Thread : Type} {state next : State Call Thread} {action : Action Call Thread}

/-! ## Host threads -/

/-- There is no host thread before it has been asked for. -/
def Asked (state : State Call Thread) : Prop :=
  ∀ host, state.hosts host ≠ .unspawned → (state.creates host).asked = true

theorem asked_initial : Asked (State.initial Call Thread) := by
  intro host spawned
  exact absurd rfl spawned

theorem Asked.frame (asked : Asked state)
    (creates : ∀ call, (next.creates call).asked = (state.creates call).asked)
    (hosts : next.hosts = state.hosts) : Asked next := by
  intro host spawned
  rw [hosts] at spawned
  rw [creates host]
  exact asked host spawned

theorem Asked.unspawned (asked : Asked state) {call : Call}
    (early : (state.creates call).asked = false) : state.hosts call = .unspawned := by
  by_contra spawned
  rw [asked call spawned] at early
  cases early

/-! ## Tasks -/

def Jobs (state : State Call Thread) : Prop :=
  JobQueue (fun call => (state.creates call).pushed = true) state.queue
    fun host => (state.hosts host).task

theorem jobs_initial : Jobs (State.initial Call Thread) := by
  refine JobQueue.empty.congr ?_ fun _ => rfl
  intro call
  simp [State.initial, CreatePhase.pushed]

theorem Jobs.frame (jobs : Jobs state) (queue : next.queue = state.queue)
    (creates : ∀ call, (next.creates call).pushed = (state.creates call).pushed)
    (hosts : ∀ host, (next.hosts host).task = (state.hosts host).task) : Jobs next := by
  rw [Jobs, queue]
  exact jobs.congr (fun call => by rw [creates call]) hosts

/-! ## The state of a task -/

/-- The task has been executed, or is being executed. -/
def Begun (state : State Call Thread) (call : Call) : Prop :=
  ∃ host value, (state.hosts host).wrote = some (call, value)

def Finished (state : State Call Thread) (call : Call) : Prop :=
  ∃ host, (state.hosts host).wrote = some (call, .COMPLETED)

/-- The state as `create` leaves it. -/
def createdState : Option SgxStatus → ThreadState
  | none => .CREATED
  | some status => (Impl.setStateOnStart status).state

structure ImplFollows (state : State Call Thread) : Prop where
  written : ∀ host call value, (state.creates call).recorded = none →
    (state.hosts host).wrote = some (call, value) → (state.impls call).state = value
  unwritten : ∀ call, ¬ Begun state call →
    (state.impls call).state = createdState (state.creates call).recorded

theorem implFollows_initial : ImplFollows (State.initial Call Thread) := by
  refine ⟨?_, fun _ _ => rfl⟩
  intro host call value _ impossible
  cases impossible

/-- The states, the recorded statuses and what the threads have written are the same. -/
structure Unwritten (state next : State Call Thread) : Prop where
  impls : next.impls = state.impls
  recorded : ∀ call, (next.creates call).recorded = (state.creates call).recorded
  wrote : ∀ host, (next.hosts host).wrote = (state.hosts host).wrote

theorem ImplFollows.frame (follows : ImplFollows state) (same : Unwritten state next) :
    ImplFollows next := by
  refine ⟨?_, ?_⟩
  · intro host call value unrecorded written
    rw [same.recorded call] at unrecorded
    rw [same.wrote host] at written
    rw [same.impls]
    exact follows.written host call value unrecorded written
  · intro call unbegun
    rw [same.impls, same.recorded call]
    apply follows.unwritten call
    rintro ⟨host, value, written⟩
    rw [← same.wrote host] at written
    exact unbegun ⟨host, value, written⟩

/-- Nobody has begun a task that is not queued yet, or is still in the queue. -/
theorem Jobs.unbegun (jobs : Jobs state) {call : Call}
    (early : (state.creates call).pushed = false ∨ call ∈ state.queue) : ¬ Begun state call := by
  rintro ⟨host, value, written⟩
  have took := HostPhase.task_of_wrote written
  rcases early with fresh | inside
  · have pushed := jobs.takenPushed host call took
    rw [fresh] at pushed
    cases pushed
  · exact jobs.takenOut host call took inside

section Updates

/-! ## One thread at a time -/

variable [DecidableEq Call]

theorem Asked.create (asked : Asked state) (call : Call) {phase : CreatePhase}
    (later : phase.asked = true) : Asked (state.setCreate call phase) := by
  intro host spawned
  by_cases same : host = call
  · simpa [State.setCreate, same] using later
  · simpa [State.setCreate, same] using asked host spawned

theorem Asked.host (asked : Asked state) {host : Call} (spawned : state.hosts host ≠ .unspawned)
    (phase : HostPhase Call) : Asked (state.setHost host phase) := by
  intro other otherSpawned
  by_cases same : other = host
  · rw [same]
    exact asked host spawned
  · simp only [State.setHost, Function.update_of_ne same] at otherSpawned
    exact asked other otherSpawned

/-- The thread that has taken a task writes its state. -/
theorem ImplFollows.write (follows : ImplFollows state) (jobs : Jobs state) {host task : Call}
    {phase : HostPhase Call} {value : ThreadState}
    (took : (state.hosts host).task = some task)
    (wrote : phase.wrote = some (task, value)) :
    ImplFollows ((state.setHost host phase).setState task value) := by
  have only : ∀ other value', other ≠ host → (state.hosts other).wrote ≠ some (task, value') := by
    intro other value' apart written
    exact apart (jobs.unique other host task (HostPhase.task_of_wrote written) took)
  have here : (((state.setHost host phase).setState task value).hosts host).wrote =
      some (task, value) := by
    simp [State.setHost, State.setState, State.setImpl, State.notifyAll, wrote]
  have elsewhere : ∀ other, other ≠ host →
      ((state.setHost host phase).setState task value).hosts other = state.hosts other := by
    intro other apart
    exact Function.update_of_ne apart ..
  have own : (((state.setHost host phase).setState task value).impls task).state = value := by
    simp [State.setHost, State.setState, State.setImpl, State.notifyAll, Impl.setState]
  have others : ∀ call, call ≠ task →
      ((state.setHost host phase).setState task value).impls call = state.impls call := by
    intro call apart
    exact Function.update_of_ne apart ..
  refine ⟨?_, ?_⟩
  · intro other call value' unrecorded written
    by_cases same : other = host
    · rw [same, here] at written
      cases written
      exact own
    · rw [elsewhere other same] at written
      have apart : call ≠ task := by
        rintro rfl
        exact only other value' same written
      rw [others call apart]
      exact follows.written other call value' unrecorded written
  · intro call unbegun
    have apart : call ≠ task := by
      rintro rfl
      exact unbegun ⟨host, value, here⟩
    rw [others call apart]
    apply follows.unwritten call
    rintro ⟨other, value', written⟩
    by_cases same : other = host
    · rw [same] at written
      have other := HostPhase.task_of_wrote written
      rw [took] at other
      cases other
      exact apart rfl
    · refine unbegun ⟨other, value', ?_⟩
      rw [elsewhere other same]
      exact written

/-- `create` writes the state of its own task. -/
theorem ImplFollows.create (follows : ImplFollows state) {call : Call} {phase : CreatePhase}
    {impl : Impl} (agrees : impl.state = createdState phase.recorded)
    (first : phase.recorded = none → ¬ Begun state call) :
    ImplFollows ((state.setCreate call phase).setImpl call impl) := by
  have apartCreates : ∀ other, other ≠ call →
      ((state.setCreate call phase).setImpl call impl).creates other = state.creates other := by
    intro other apart
    exact Function.update_of_ne apart ..
  have apartImpls : ∀ other, other ≠ call →
      ((state.setCreate call phase).setImpl call impl).impls other = state.impls other := by
    intro other apart
    exact Function.update_of_ne apart ..
  refine ⟨?_, ?_⟩
  · intro host other value unrecorded written
    by_cases same : other = call
    · subst same
      have recorded : phase.recorded = none := by
        simpa [State.setCreate, State.setImpl] using unrecorded
      exact absurd ⟨host, value, written⟩ (first recorded)
    · rw [apartCreates other same] at unrecorded
      rw [apartImpls other same]
      exact follows.written host other value unrecorded written
  · intro other unbegun
    by_cases same : other = call
    · subst same
      simp [State.setCreate, State.setImpl, agrees]
    · rw [apartImpls other same, apartCreates other same]
      exact follows.unwritten other unbegun

end Updates

section Steps

/-! ## Every step -/

variable [DecidableEq Call] [DecidableEq Thread]

theorem Asked.preserved (asked : Asked state) (stepped : Stepped state action next) :
    Asked next := by
  cases stepped with
  | isAlive idle alive =>
      refine asked.frame (apply_update_of_eq CreatePhase.asked ?_) rfl
      rw [idle]
      rfl
  | pushBack alive =>
      refine asked.frame (apply_update_of_eq CreatePhase.asked ?_) rfl
      rw [alive]
      rfl
  | @requestThread call queued =>
      intro host spawned
      by_cases same : host = call
      · simp [State.setCreate, State.setHost, same, CreatePhase.asked]
      · simp only [State.setHost, State.setCreate, Function.update_of_ne same] at spawned ⊢
        exact asked host spawned
  | requestFails queued failure => exact asked.create _ rfl
  | answer requested promise => exact asked.create _ rfl
  | setStateOnStart answered => exact (asked.create _ rfl).frame (fun _ => rfl) rfl
  | attachFails spawned failure =>
      exact (asked.host (by simp [spawned]) _).frame (fun _ => rfl) rfl
  | popFront spawned front =>
      exact (asked.host (by simp [spawned]) _).frame (fun _ => rfl) rfl
  | completeRequest popped =>
      exact (asked.host (by simp [popped]) _).frame (fun _ => rfl) rfl
  | checkpoint acknowledged =>
      exact (asked.host (by simp [acknowledged]) _).frame (fun _ => rfl) rfl
  | runTask counted => exact (asked.host (by simp [counted]) _).frame (fun _ => rfl) rfl
  | taskReturns running => exact (asked.host (by simp [running]) _).frame (fun _ => rfl) rfl
  | detach completed =>
      exact (asked.host (by simp [completed]) _).frame (fun _ => rfl) rfl
  | wait returned free => exact asked.frame (fun _ => rfl) rfl
  | wake waiting => exact asked.frame (fun _ => rfl) rfl
  | shutdown free => exact asked.frame (fun _ => rfl) rfl
  | wakeShutdown waiting => exact asked.frame (fun _ => rfl) rfl

theorem Jobs.preserved (jobs : Jobs state) (asked : Asked state)
    (stepped : Stepped state action next) : Jobs next := by
  cases stepped with
  | isAlive idle alive =>
      refine jobs.frame rfl (apply_update_of_eq CreatePhase.pushed ?_) fun _ => rfl
      rw [idle]
      rfl
  | @pushBack call alive =>
      have fresh : ¬ (state.creates call).pushed = true := by
        rw [alive]
        decide
      refine (jobs.push fresh).congr ?_ fun _ => rfl
      intro other
      by_cases same : other = call
      · simp [State.setCreate, State.setImpl, same, CreatePhase.pushed]
      · simp [State.setCreate, State.setImpl, same]
  | @requestThread call queued =>
      have unspawned : state.hosts call = .unspawned := asked.unspawned (by rw [queued]; rfl)
      refine jobs.frame rfl (apply_update_of_eq CreatePhase.pushed ?_)
        (apply_update_of_eq HostPhase.task ?_)
      · rw [queued]
        rfl
      · simp [State.setCreate, unspawned, HostPhase.task]
  | requestFails queued failure =>
      refine jobs.frame rfl (apply_update_of_eq CreatePhase.pushed ?_) fun _ => rfl
      rw [queued]
      rfl
  | answer requested promise =>
      refine jobs.frame rfl (apply_update_of_eq CreatePhase.pushed ?_) fun _ => rfl
      rw [requested]
      rfl
  | setStateOnStart answered =>
      refine jobs.frame rfl (apply_update_of_eq CreatePhase.pushed ?_) fun _ => rfl
      rw [answered]
      rfl
  | attachFails spawned failure =>
      refine jobs.frame rfl (fun _ => rfl) (apply_update_of_eq HostPhase.task ?_)
      rw [spawned]
      rfl
  | @popFront host task rest spawned front =>
      have queue : JobQueue (fun call => (state.creates call).pushed = true) (task :: rest)
          fun host => (state.hosts host).task := by
        rw [← front]
        exact jobs
      have free : (state.hosts host).task = none := by
        rw [spawned]
        rfl
      refine (queue.pop free).congr (fun _ => Iff.rfl) ?_
      intro other
      by_cases same : other = host
      · simp [State.setHost, same, HostPhase.task]
      · simp [State.setHost, same]
  | completeRequest popped =>
      refine jobs.frame rfl (fun _ => rfl) (apply_update_of_eq HostPhase.task ?_)
      rw [popped]
      rfl
  | checkpoint acknowledged =>
      refine jobs.frame rfl (fun _ => rfl) (apply_update_of_eq HostPhase.task ?_)
      rw [acknowledged]
      rfl
  | runTask counted =>
      refine jobs.frame rfl (fun _ => rfl) (apply_update_of_eq HostPhase.task ?_)
      rw [counted]
      rfl
  | taskReturns running =>
      refine jobs.frame rfl (fun _ => rfl) (apply_update_of_eq HostPhase.task ?_)
      rw [running]
      rfl
  | detach completed =>
      refine jobs.frame rfl (fun _ => rfl) (apply_update_of_eq HostPhase.task ?_)
      rw [completed]
      rfl
  | wait returned free => exact jobs.frame rfl (fun _ => rfl) fun _ => rfl
  | wake waiting => exact jobs.frame rfl (fun _ => rfl) fun _ => rfl
  | shutdown free => exact jobs.frame rfl (fun _ => rfl) fun _ => rfl
  | wakeShutdown waiting => exact jobs.frame rfl (fun _ => rfl) fun _ => rfl

/-- Only these steps write the state of a task, or record a status. -/
def Action.writes : Action Call Thread → Bool
  | .pushBack _ | .setStateOnStart _ | .runTask _ | .taskReturns _ => true
  | _ => false

theorem Asked.unwritten (asked : Asked state) (stepped : Stepped state action next)
    (other : action.writes = false) : Unwritten state next := by
  cases stepped with
  | isAlive idle alive =>
      refine ⟨rfl, apply_update_of_eq CreatePhase.recorded ?_, fun _ => rfl⟩
      rw [idle]
      rfl
  | @requestThread call queued =>
      have unspawned : state.hosts call = .unspawned := asked.unspawned (by rw [queued]; rfl)
      refine ⟨rfl, apply_update_of_eq CreatePhase.recorded ?_,
        apply_update_of_eq HostPhase.wrote ?_⟩
      · rw [queued]
        rfl
      · simp [State.setCreate, unspawned, HostPhase.wrote]
  | requestFails queued failure =>
      refine ⟨rfl, apply_update_of_eq CreatePhase.recorded ?_, fun _ => rfl⟩
      rw [queued]
      rfl
  | answer requested promise =>
      refine ⟨rfl, apply_update_of_eq CreatePhase.recorded ?_, fun _ => rfl⟩
      rw [requested]
      rfl
  | attachFails spawned failure =>
      refine ⟨rfl, fun _ => rfl, apply_update_of_eq HostPhase.wrote ?_⟩
      rw [spawned]
      rfl
  | popFront spawned front =>
      refine ⟨rfl, fun _ => rfl, apply_update_of_eq HostPhase.wrote ?_⟩
      rw [spawned]
      rfl
  | completeRequest popped =>
      refine ⟨rfl, fun _ => rfl, apply_update_of_eq HostPhase.wrote ?_⟩
      rw [popped]
      rfl
  | checkpoint acknowledged =>
      refine ⟨rfl, fun _ => rfl, apply_update_of_eq HostPhase.wrote ?_⟩
      rw [acknowledged]
      rfl
  | detach completed =>
      refine ⟨rfl, fun _ => rfl, apply_update_of_eq HostPhase.wrote ?_⟩
      rw [completed]
      rfl
  | pushBack alive => cases other
  | setStateOnStart answered => cases other
  | runTask counted => cases other
  | taskReturns running => cases other
  | _ => exact ⟨rfl, fun _ => rfl, fun _ => rfl⟩

theorem ImplFollows.preserved (follows : ImplFollows state) (jobs : Jobs state)
    (asked : Asked state)
    (stepped : Stepped state action next) : ImplFollows next := by
  have unwritten := asked.unwritten stepped
  cases stepped with
  | @pushBack call alive =>
      have fresh : ¬ Begun state call := jobs.unbegun (.inl (by rw [alive]; rfl))
      have queued : ImplFollows { state with queue := state.queue ++ [call] } :=
        follows.frame ⟨rfl, fun _ => rfl, fun _ => rfl⟩
      exact queued.create rfl fun _ => fresh
  | setStateOnStart answered =>
      refine follows.create rfl ?_
      intro impossible
      cases impossible
  | runTask counted =>
      refine follows.write jobs ?_ rfl
      rw [counted]
      rfl
  | taskReturns running =>
      refine follows.write jobs ?_ rfl
      rw [running]
      rfl
  | _ => exact follows.frame (unwritten rfl)

/-! ## Together -/

omit [DecidableEq Call] [DecidableEq Thread] in
structure Inv (state : State Call Thread) : Prop where
  asked : Asked state
  jobs : Jobs state
  follows : ImplFollows state

omit [DecidableEq Call] [DecidableEq Thread] in
theorem inv_initial : Inv (State.initial Call Thread) :=
  ⟨asked_initial, jobs_initial, implFollows_initial⟩

theorem Inv.preserved (inv : Inv state) (stepped : Stepped state action next) : Inv next :=
  ⟨inv.asked.preserved stepped, inv.jobs.preserved inv.asked stepped,
    inv.follows.preserved inv.jobs inv.asked stepped⟩

end Steps

end Conclave.Threads
