import ConclaveFormal.Threads.ThreadInvariant

/-!
# The status of a started thread

A host thread takes the task at the front of the queue, which need not be the task of the `create`
that has asked for the thread.
-/

set_option autoImplicit false

namespace Conclave.Threads

open Conclave.Lib

section Definitions

variable {Call Thread : Type}

/-- A task whose `create` has recorded a failure is not executed, and a queued task is one for
which the host request has not returned. -/
structure Truthful (state : State Call Thread) : Prop where
  notBegun : ∀ call status, (state.creates call).recorded = some status → status ≠ sgxSuccess →
    ¬ Begun state call
  outstanding : ∀ call, call ∈ state.queue → (state.creates call).outstanding = true

/-- No host request fails, and none returns while the task of its own `create` is queued. -/
def Faultless (state : State Call Thread) : Action Call Thread → Prop
  | .requestFails _ _ => False
  | .attachFails _ _ => False
  | .answer call => call ∉ state.queue
  | _ => True

instance decidableFaultless [DecidableEq Call] (state : State Call Thread) :
    (action : Action Call Thread) → Decidable (Faultless state action)
  | .requestFails _ _ | .attachFails _ _ => instDecidableFalse
  | .answer call => inferInstanceAs (Decidable (call ∉ state.queue))
  | .isAlive _ | .pushBack _ | .requestThread _ | .setStateOnStart _ | .popFront _
  | .completeRequest _ | .checkpoint _ | .runTask _ | .taskReturns _ | .detach _ | .wait _ _ _
  | .wake _ | .shutdown _ | .wakeShutdown _ => instDecidableTrue

/-- Every answer has been recorded, and every thread has begun the task that it took. -/
structure Settled (state : State Call Thread) : Prop where
  recorded : ∀ call status, state.creates call ≠ .answered status
  answered : ∀ call status, state.creates call = .requested → state.promises call ≠ some status
  begun : ∀ host task, (state.hosts host).task = some task → Begun state task

end Definitions

/-! ## Runs without a fault -/

section Faultless

variable {Call Thread : Type} {state next : State Call Thread} {action : Action Call Thread}

/-- What a `create` knows of its host request. -/
def CreatePhase.status : CreatePhase → Option SgxStatus
  | .answered status | .returned status => some status
  | _ => none

structure Succeeding (state : State Call Thread) : Prop where
  promise : ∀ call status, state.promises call = some status → status = sgxSuccess
  success : ∀ call status, (state.creates call).status = some status → status = sgxSuccess
  taken : ∀ call status, (state.creates call).status = some status → call ∉ state.queue

theorem succeeding_initial : Succeeding (State.initial Call Thread) := by
  refine ⟨?_, ?_, ?_⟩
  · intro call status impossible
    cases impossible
  · intro call status impossible
    cases impossible
  · intro call status impossible
    cases impossible

theorem Succeeding.truthful (succeeding : Succeeding state) (jobs : Jobs state) :
    Truthful state where
  notBegun := by
    intro call status recorded failure
    refine absurd (succeeding.success call status ?_) failure
    cases phase : state.creates call with
    | returned other =>
        rw [phase] at recorded
        cases recorded
        rfl
    | _ =>
        rw [phase] at recorded
        cases recorded
  outstanding := by
    intro call inside
    have pushed := jobs.queued call inside
    cases phase : state.creates call with
    | queued | requested => rfl
    | idle | alive =>
        rw [phase] at pushed
        cases pushed
    | answered status | returned status =>
        have known : (state.creates call).status = some status := by
          rw [phase]
          rfl
        exact absurd inside (succeeding.taken call status known)

theorem Succeeding.frame (succeeding : Succeeding state)
    (promises : ∀ call status, next.promises call = some status →
      state.promises call = some status ∨ status = sgxSuccess)
    (creates : ∀ call, (next.creates call).status = (state.creates call).status)
    (queue : ∀ call, call ∈ next.queue → call ∈ state.queue) : Succeeding next := by
  refine ⟨?_, ?_, ?_⟩
  · intro call status promised
    rcases promises call status promised with before | success
    · exact succeeding.promise call status before
    · exact success
  · intro call status known
    rw [creates call] at known
    exact succeeding.success call status known
  · intro call status known inside
    rw [creates call] at known
    exact succeeding.taken call status known (queue call inside)

variable [DecidableEq Call]

/-- A `create` learns a status that is a success, with its own task out of the queue. -/
theorem Succeeding.learn (succeeding : Succeeding state) {call : Call} {phase : CreatePhase}
    (success : ∀ status, phase.status = some status → status = sgxSuccess)
    (taken : call ∉ state.queue) : Succeeding (state.setCreate call phase) := by
  refine ⟨succeeding.promise, ?_, ?_⟩
  · intro other status known
    by_cases same : other = call
    · simp only [State.setCreate, same, Function.update_self] at known
      exact success status known
    · simp only [State.setCreate, Function.update_of_ne same] at known
      exact succeeding.success other status known
  · intro other status known
    by_cases same : other = call
    · rw [same]
      exact taken
    · simp only [State.setCreate, Function.update_of_ne same] at known
      exact succeeding.taken other status known

theorem promises_setThreadStartStatus {host : Call} {status : SgxStatus} (call : Call)
    (other : SgxStatus)
    (promised : (state.setThreadStartStatus host status).promises call = some other) :
    state.promises call = some other ∨ other = status := by
  by_cases same : call = host
  · subst same
    cases before : state.promises call with
    | none =>
        simp only [State.setThreadStartStatus, Function.update_self, before, Option.getD_none,
          Option.some.injEq] at promised
        exact .inr promised.symm
    | some first =>
        simp only [State.setThreadStartStatus, Function.update_self, before, Option.getD_some]
          at promised
        exact .inl promised
  · simp only [State.setThreadStartStatus, Function.update_of_ne same] at promised
    exact .inl promised

variable [DecidableEq Thread]

theorem Succeeding.preserved (succeeding : Succeeding state) (faultless : Faultless state action)
    (stepped : Stepped state action next) : Succeeding next := by
  have kept : ∀ call status, state.promises call = some status →
      state.promises call = some status ∨ status = sgxSuccess := by
    intro call status promised
    exact .inl promised
  cases stepped with
  | isAlive idle alive =>
      refine succeeding.frame kept (apply_update_of_eq CreatePhase.status ?_) fun _ => id
      rw [idle]
      rfl
  | @pushBack call alive =>
      have same : ∀ other, (Function.update state.creates call .queued other).status =
          (state.creates other).status := by
        apply apply_update_of_eq CreatePhase.status
        rw [alive]
        rfl
      refine ⟨succeeding.promise, ?_, ?_⟩
      · intro other status known
        exact succeeding.success other status ((same other).symm.trans known)
      · intro other status known inside
        have before := (same other).symm.trans known
        rcases List.mem_append.mp inside with queued | last
        · exact succeeding.taken other status before queued
        · rw [List.mem_singleton.mp last, alive] at before
          cases before
  | requestThread queued =>
      refine succeeding.frame kept (apply_update_of_eq CreatePhase.status ?_) fun _ => id
      rw [queued]
      rfl
  | requestFails queued failure => exact faultless.elim
  | @answer call status requested promise =>
      refine succeeding.learn ?_ faultless
      intro other known
      cases known
      exact succeeding.promise call status promise
  | @setStateOnStart call status answered =>
      have known : (state.creates call).status = some status := by
        rw [answered]
        rfl
      have learnt : Succeeding (state.setCreate call (.returned status)) := by
        refine succeeding.learn ?_ (succeeding.taken call status known)
        intro other same
        cases same
        exact succeeding.success call status known
      exact learnt.frame (fun _ _ => .inl) (fun _ => rfl) fun _ => id
  | attachFails spawned failure => exact faultless.elim
  | popFront spawned front =>
      refine succeeding.frame kept (fun _ => rfl) ?_
      intro call inside
      rw [front]
      exact List.mem_cons_of_mem _ inside
  | completeRequest popped =>
      exact succeeding.frame promises_setThreadStartStatus (fun _ => rfl) fun _ => id
  | checkpoint acknowledged => exact succeeding.frame kept (fun _ => rfl) fun _ => id
  | runTask counted => exact succeeding.frame kept (fun _ => rfl) fun _ => id
  | taskReturns running => exact succeeding.frame kept (fun _ => rfl) fun _ => id
  | detach completed => exact succeeding.frame kept (fun _ => rfl) fun _ => id
  | wait returned free => exact succeeding.frame kept (fun _ => rfl) fun _ => id
  | wake waiting => exact succeeding.frame kept (fun _ => rfl) fun _ => id
  | shutdown free => exact succeeding.frame kept (fun _ => rfl) fun _ => id
  | wakeShutdown waiting => exact succeeding.frame kept (fun _ => rfl) fun _ => id

end Faultless

/-! ## Runs with a fault -/

section Faults

variable {Call Thread : Type} {state next : State Call Thread} {action : Action Call Thread}

/-- The host thread has not told whether it attached. -/
def HostPhase.silent : HostPhase Call → Bool
  | .unspawned | .spawned | .popped _ => true
  | _ => false

/-- A silent host thread has not kept its promise, and its request is still out. -/
structure Signals (state : State Call Thread) : Prop where
  promise : ∀ host, (state.hosts host).silent = true → state.promises host = none
  requested : ∀ host, (state.hosts host).silent = true → state.hosts host ≠ .unspawned →
    state.creates host = .requested

theorem signals_initial : Signals (State.initial Call Thread) := by
  refine ⟨fun _ _ => rfl, ?_⟩
  intro host _ spawned
  exact absurd rfl spawned

/-- The host request of `call` fails, or has failed. -/
def Failing (state : State Call Thread) (call : Call) : Prop :=
  ∃ status, status ≠ sgxSuccess ∧ ((state.creates call).status = some status ∨
    state.creates call = .requested ∧ state.promises call = some status)

theorem Signals.frame (signals : Signals state) (hosts : next.hosts = state.hosts)
    (promises : next.promises = state.promises)
    (creates : ∀ host, (state.hosts host).silent = true → state.creates host = .requested →
      next.creates host = .requested) : Signals next := by
  refine ⟨?_, ?_⟩
  · intro host silent
    rw [hosts] at silent
    rw [promises]
    exact signals.promise host silent
  · intro host silent spawned
    rw [hosts] at silent spawned
    exact creates host silent (signals.requested host silent spawned)

/-- A thread that is not silent any more has nothing to keep. -/
theorem Signals.loud (signals : Signals state) {host : Call}
    (loud : (next.hosts host).silent = false)
    (hosts : ∀ other, other ≠ host → next.hosts other = state.hosts other)
    (promises : ∀ other, other ≠ host → next.promises other = state.promises other)
    (creates : next.creates = state.creates) : Signals next := by
  have apart : ∀ other, (next.hosts other).silent = true → other ≠ host := by
    rintro other silent rfl
    rw [loud] at silent
    cases silent
  refine ⟨?_, ?_⟩
  · intro other silent
    have away := apart other silent
    rw [hosts other away] at silent
    rw [promises other away]
    exact signals.promise other silent
  · intro other silent spawned
    have away := apart other silent
    rw [hosts other away] at silent spawned
    rw [creates]
    exact signals.requested other silent spawned

theorem Failing.asked {call : Call} (failing : Failing state call) :
    (state.creates call).asked = true := by
  obtain ⟨status, _, known | ⟨requested, _⟩⟩ := failing
  · cases phase : state.creates call with
    | answered other | returned other => rfl
    | _ =>
        rw [phase] at known
        cases known
  · rw [requested]
    rfl

theorem Failing.frame {call : Call} (failing : Failing state call)
    (creates : next.creates call = state.creates call)
    (promises : ∀ status, state.promises call = some status →
      next.promises call = some status) : Failing next call := by
  obtain ⟨status, failure, known⟩ := failing
  refine ⟨status, failure, ?_⟩
  rw [creates]
  exact known.imp_right fun ⟨requested, promise⟩ => ⟨requested, promises status promise⟩

variable [DecidableEq Call]

theorem Failing.create {call : Call} (failing : Failing state call) {other : Call}
    (phase : CreatePhase) (early : (state.creates other).asked = false) :
    Failing (state.setCreate other phase) call := by
  have apart : call ≠ other := by
    rintro rfl
    rw [failing.asked] at early
    cases early
  exact failing.frame (Function.update_of_ne apart ..) fun _ => id

theorem setThreadStartStatus_keeps {host call : Call} {status first : SgxStatus}
    (promise : state.promises call = some first) :
    (state.setThreadStartStatus host status).promises call = some first := by
  by_cases same : call = host
  · subst same
    simp [State.setThreadStartStatus, promise]
  · simp [State.setThreadStartStatus, same, promise]

theorem creates_setCreate_of_requested {call host : Call} {phase : CreatePhase}
    (other : state.creates call ≠ .requested) (requested : state.creates host = .requested) :
    (state.setCreate call phase).creates host = .requested := by
  have apart : host ≠ call := by
    rintro rfl
    exact other requested
  simp [State.setCreate, apart, requested]

variable [DecidableEq Thread]

theorem Signals.preserved (signals : Signals state) (asked : Asked state)
    (stepped : Stepped state action next) : Signals next := by
  cases stepped with
  | isAlive idle alive =>
      refine signals.frame rfl rfl fun host _ => creates_setCreate_of_requested ?_
      simp [idle]
  | pushBack alive =>
      refine signals.frame rfl rfl fun host _ => creates_setCreate_of_requested ?_
      simp [alive]
  | @requestThread call queued =>
      have unspawned : state.hosts call = .unspawned := asked.unspawned (by rw [queued]; rfl)
      refine ⟨?_, ?_⟩
      · intro host silent
        by_cases same : host = call
        · rw [same]
          refine signals.promise call ?_
          rw [unspawned]
          rfl
        · simp only [State.setHost, State.setCreate, Function.update_of_ne same] at silent
          exact signals.promise host silent
      · intro host silent spawned
        by_cases same : host = call
        · simp [State.setHost, State.setCreate, same]
        · simp only [State.setHost, State.setCreate, Function.update_of_ne same] at silent spawned ⊢
          exact signals.requested host silent spawned
  | requestFails queued failure =>
      refine signals.frame rfl rfl fun host _ => creates_setCreate_of_requested ?_
      simp [queued]
  | @answer call status requested promise =>
      refine signals.frame rfl rfl ?_
      intro host silent stillRequested
      have apart : host ≠ call := by
        rintro rfl
        rw [signals.promise host silent] at promise
        cases promise
      simpa [State.setCreate, apart] using stillRequested
  | setStateOnStart answered =>
      refine signals.frame rfl rfl fun host _ => creates_setCreate_of_requested ?_
      simp [answered]
  | @attachFails host status spawned failure =>
      refine @Signals.loud _ _ _ _ signals host ?_ ?_ ?_ rfl
      · simp [State.setHost, State.setThreadStartStatus, HostPhase.silent]
      · exact fun other apart => Function.update_of_ne apart ..
      · exact fun other apart => Function.update_of_ne apart ..
  | @popFront host task rest spawned front =>
      have silent : (state.hosts host).silent = true := by
        rw [spawned]
        rfl
      refine ⟨?_, ?_⟩
      · intro other otherSilent
        by_cases same : other = host
        · rw [same]
          exact signals.promise host silent
        · simp only [State.setHost, Function.update_of_ne same] at otherSilent
          exact signals.promise other otherSilent
      · intro other otherSilent otherSpawned
        by_cases same : other = host
        · rw [same]
          exact signals.requested host silent (by simp [spawned])
        · simp only [State.setHost, Function.update_of_ne same] at otherSilent otherSpawned
          exact signals.requested other otherSilent otherSpawned
  | @completeRequest host task popped =>
      refine @Signals.loud _ _ _ _ signals host ?_ ?_ ?_ rfl
      · simp [State.setHost, State.setThreadStartStatus, HostPhase.silent]
      · exact fun other apart => Function.update_of_ne apart ..
      · exact fun other apart => Function.update_of_ne apart ..
  | @checkpoint host task acknowledged =>
      refine @Signals.loud _ _ _ _ signals host ?_ ?_ (fun _ _ => rfl) rfl
      · simp [State.setHost, HostPhase.silent]
      · exact fun other apart => Function.update_of_ne apart ..
  | @runTask host task counted =>
      refine @Signals.loud _ _ _ _ signals host ?_ ?_ (fun _ _ => rfl) rfl
      · simp [State.setHost, State.setState, State.setImpl, State.notifyAll, HostPhase.silent]
      · exact fun other apart => Function.update_of_ne apart ..
  | @taskReturns host task running =>
      refine @Signals.loud _ _ _ _ signals host ?_ ?_ (fun _ _ => rfl) rfl
      · simp [State.setHost, State.setState, State.setImpl, State.notifyAll, HostPhase.silent]
      · exact fun other apart => Function.update_of_ne apart ..
  | @detach host task completed =>
      refine @Signals.loud _ _ _ _ signals host ?_ ?_ (fun _ _ => rfl) rfl
      · simp [State.setHost, HostPhase.silent]
      · exact fun other apart => Function.update_of_ne apart ..
  | wait returned free => exact signals.frame rfl rfl fun _ _ => id
  | wake waiting => exact signals.frame rfl rfl fun _ _ => id
  | shutdown free => exact signals.frame rfl rfl fun _ _ => id
  | wakeShutdown waiting => exact signals.frame rfl rfl fun _ _ => id

theorem Failing.preserved {call : Call} (failing : Failing state call)
    (stepped : Stepped state action next) : Failing next call := by
  cases stepped with
  | isAlive idle alive => exact failing.create _ (by rw [idle]; rfl)
  | pushBack alive =>
      have created : Failing (state.setCreate _ .queued) call :=
        failing.create .queued (by rw [alive]; rfl)
      exact created.frame rfl fun _ => id
  | requestThread queued =>
      have created : Failing (state.setCreate _ .requested) call :=
        failing.create .requested (by rw [queued]; rfl)
      exact created.frame rfl fun _ => id
  | requestFails queued failure => exact failing.create _ (by rw [queued]; rfl)
  | @answer other status requested promise =>
      by_cases same : call = other
      · subst same
        obtain ⟨first, failure, known | ⟨_, promised⟩⟩ := failing
        · rw [requested] at known
          cases known
        · rw [promise] at promised
          cases promised
          refine ⟨status, failure, .inl ?_⟩
          simp [State.setCreate, CreatePhase.status]
      · exact failing.frame (Function.update_of_ne same ..) fun _ => id
  | @setStateOnStart other status answered =>
      by_cases same : call = other
      · subst same
        obtain ⟨first, failure, known | ⟨requested, _⟩⟩ := failing
        · rw [answered] at known
          cases known
          refine ⟨status, failure, .inl ?_⟩
          simp [State.setCreate, State.setImpl, CreatePhase.status]
        · rw [answered] at requested
          cases requested
      · exact failing.frame (Function.update_of_ne same ..) fun _ => id
  | attachFails spawned failure => exact failing.frame rfl fun _ => setThreadStartStatus_keeps
  | popFront spawned front => exact failing.frame rfl fun _ => id
  | completeRequest popped => exact failing.frame rfl fun _ => setThreadStartStatus_keeps
  | checkpoint acknowledged => exact failing.frame rfl fun _ => id
  | runTask counted => exact failing.frame rfl fun _ => id
  | taskReturns running => exact failing.frame rfl fun _ => id
  | detach completed => exact failing.frame rfl fun _ => id
  | wait returned free => exact failing.frame rfl fun _ => id
  | wake waiting => exact failing.frame rfl fun _ => id
  | shutdown free => exact failing.frame rfl fun _ => id
  | wakeShutdown waiting => exact failing.frame rfl fun _ => id

omit [DecidableEq Call] [DecidableEq Thread] in
/-- The task of a failed `create` cannot stay queued, and whoever takes it executes it. -/
theorem Failing.untruthful {call : Call} (failing : Failing state call) (jobs : Jobs state)
    (settled : Settled state) : ¬ Truthful state := by
  intro truthful
  obtain ⟨status, failure, known | ⟨requested, promise⟩⟩ := failing
  · cases phase : state.creates call with
    | answered other => exact settled.recorded call other phase
    | returned other =>
        rw [phase] at known
        cases known
        have pushed : (state.creates call).pushed = true := by
          rw [phase]
          rfl
        rcases jobs.somewhere call pushed with inside | ⟨host, took⟩
        · have out := truthful.outstanding call inside
          rw [phase] at out
          cases out
        · have recorded : (state.creates call).recorded = some status := by
            rw [phase]
            rfl
          exact truthful.notBegun call status recorded failure (settled.begun host call took)
    | _ =>
        rw [phase] at known
        cases known
  · exact settled.answered call status requested promise

theorem Failing.run {call : Call} {inputs : List (Action Call Thread)} {final : State Call Thread}
    (failing : Failing state call) (ran : run step state inputs = some final) :
    Failing final call := by
  induction inputs generalizing state with
  | nil =>
      cases ran
      exact failing
  | cons action rest ih =>
      obtain ⟨next, stepped, onward⟩ := run_cons ran
      exact ih (failing.preserved (stepped_of_step stepped)) onward

theorem failing_of_fault (signals : Signals state) (stepped : Stepped state action next)
    (fault : ¬ Faultless state action) :
    (∃ call, Failing next call) ∨ ¬ Truthful next := by
  cases stepped with
  | @requestFails call status queued failure =>
      refine .inl ⟨call, status, failure, .inl ?_⟩
      simp [State.setCreate, CreatePhase.status]
  | @attachFails host status spawned failure =>
      have silent : (state.hosts host).silent = true := by
        rw [spawned]
        rfl
      have requested := signals.requested host silent (by simp [spawned])
      refine .inl ⟨host, status, failure, .inr ⟨requested, ?_⟩⟩
      simp [State.setThreadStartStatus, State.setHost, signals.promise host silent]
  | @answer call status requested promise =>
      refine .inr ?_
      intro truthful
      have inside : call ∈ state.queue := not_not.mp fault
      have out := truthful.outstanding call inside
      simp [State.setCreate, CreatePhase.outstanding] at out
  | _ => exact absurd trivial fault

end Faults

/-! ## Every run -/

section Runs

variable {Call Thread : Type} [DecidableEq Call] [DecidableEq Thread]

theorem Succeeding.always {inputs : List (Action Call Thread)} {state : State Call Thread}
    (inv : Inv state) (succeeding : Succeeding state) (meets : Meets step Faultless state inputs) :
    Always step Truthful state inputs := by
  have kept : ∀ {state : State Call Thread} {action next}, Inv state ∧ Succeeding state →
      Faultless state action → step state action = some next → Inv next ∧ Succeeding next := by
    intro state action next ⟨inv, succeeding⟩ faultless stepped
    have taken := stepped_of_step stepped
    exact ⟨inv.preserved taken, succeeding.preserved faultless taken⟩
  exact always_of_meets kept (fun invariant => invariant.2.truthful invariant.1.jobs)
    ⟨inv, succeeding⟩ meets

theorem Signals.meets {inputs : List (Action Call Thread)} {state final : State Call Thread}
    (inv : Inv state) (signals : Signals state) (always : Always step Truthful state inputs)
    (ran : run step state inputs = some final) (settled : Settled final) :
    Meets step Faultless state inputs := by
  induction inputs generalizing state with
  | nil => trivial
  | cons action rest ih =>
      obtain ⟨next, stepped, onward⟩ := run_cons ran
      have taken := stepped_of_step stepped
      have later := (always_cons.mp always).2 next stepped
      have invNext := inv.preserved taken
      refine .cons ?_ stepped
        (ih invNext (signals.preserved inv.asked taken) later onward)
      by_contra fault
      rcases failing_of_fault signals taken fault with ⟨call, failing⟩ | untruthful
      · have invFinal : Inv final :=
          run_invariant (fun inv stepped => inv.preserved (stepped_of_step stepped)) invNext onward
        refine (failing.run onward).untruthful invFinal.jobs settled ?_
        exact later rest [] final (List.append_nil rest).symm onward
      · exact untruthful ((always_cons.mp always).2 next stepped [] rest next rfl rfl)

/-- Without a fault the status is truthful in every state; and where every thread has got on with
its task, it has been truthful all the way only without a fault. -/
theorem truthful_iff (inputs : List (Action Call Thread)) :
    (Meets step Faultless (State.initial Call Thread) inputs →
        Always step Truthful (State.initial Call Thread) inputs) ∧
      ∀ final, run step (State.initial Call Thread) inputs = some final → Settled final →
        Always step Truthful (State.initial Call Thread) inputs →
          Meets step Faultless (State.initial Call Thread) inputs := by
  refine ⟨succeeding_initial.always inv_initial, ?_⟩
  intro final ran settled always
  exact signals_initial.meets inv_initial always ran settled

/-- Two requests at a time.  The thread that is started for the second one takes the task of the
first. -/
def crossedTasks : List (Action Bool Unit) :=
  [.isAlive true, .isAlive false, .pushBack true, .pushBack false, .requestThread true,
    .requestThread false, .popFront false, .popFront true, .completeRequest false, .answer false,
    .checkpoint false, .runTask false, .setStateOnStart false, .wait () .join false,
    .completeRequest true, .checkpoint true, .runTask true, .taskReturns false, .answer true,
    .setStateOnStart true, .taskReturns true, .wake (), .detach false, .detach true]

theorem crossedTasks_truthful :
    Always step Truthful (State.initial Bool Unit) crossedTasks ∧
      Meets step Faultless (State.initial Bool Unit) crossedTasks ∧
      (run step (State.initial Bool Unit) crossedTasks).map
        (fun state => ((state.creates true).recorded, (state.creates false).recorded)) =
          some (some sgxSuccess, some sgxSuccess) := by
  have truthful := (truthful_iff crossedTasks).1 (by decide)
  refine ⟨truthful, (truthful_iff crossedTasks).2 _ rfl ?_ truthful, rfl⟩
  refine ⟨?_, ?_, ?_⟩
  · intro call status impossible
    cases call with
    | false => cases impossible
    | true => cases impossible
  · intro call status requested
    cases call with
    | false => cases requested
    | true => cases requested
  · intro host task _
    cases task with
    | false => exact ⟨true, .COMPLETED, rfl⟩
    | true => exact ⟨false, .COMPLETED, rfl⟩

/-- Two requests, of which the first one finds no room for another thread in the enclave. -/
def outOfTcs : List (Action Bool Unit) :=
  [.isAlive true, .isAlive false, .pushBack true, .pushBack false, .requestThread true,
    .requestThread false, .attachFails true 0x1003, .popFront false, .completeRequest false,
    .checkpoint false, .runTask false, .answer true, .setStateOnStart true, .answer false,
    .setStateOnStart false]

/-- The task that could not be started is executed, and the other one waits for a thread that
nobody asks for. -/
theorem outOfTcs_untruthful :
    ∃ state, run step (State.initial Bool Unit) outOfTcs = some state ∧
      (state.creates true).recorded = some 0x1003 ∧ Begun state true ∧
      (state.creates false).recorded = some sgxSuccess ∧ state.queue = [false] ∧
      ¬ Truthful state := by
  refine ⟨_, rfl, rfl, ⟨false, .STARTED, rfl⟩, rfl, rfl, ?_⟩
  intro truthful
  cases truthful.outstanding false (List.mem_singleton_self false)

end Runs

end Conclave.Threads
