import ConclaveFormal.Lib.Transition
import Mathlib.Logic.Function.Basic

/-!
# The thread factory of an enclave

`create` queues a task and asks the host for a thread, the new host thread comes in with
`attach_host_thread` and takes whatever task is at the front.  A step is one critical section of a
mutex, or one message between the enclave and the host, so the calls interleave between any two.
-/

set_option autoImplicit false

namespace Conclave.Threads

open Conclave.Lib

/-- `sgx_status_t`. -/
abbrev SgxStatus : Type := UInt32

def sgxSuccess : SgxStatus := 0

inductive ThreadState where
  | CREATED
  | STARTED
  | COMPLETED
  deriving DecidableEq, Repr

def ThreadState.value : ThreadState → Nat
  | CREATED => 0
  | STARTED => 1
  | COMPLETED => 2

/-! ## `Thread::Impl` -/

structure Impl where
  state : ThreadState
  sgxStatus : SgxStatus
  deriving DecidableEq, Repr

inductive Wait where
  | start
  | join
  deriving DecidableEq, Repr

namespace Impl

def new : Impl where
  state := .CREATED
  sgxStatus := sgxSuccess

def setState (impl : Impl) (state : ThreadState) : Impl := { impl with state := state }

def setStateOnStart (sgxStatus : SgxStatus) : Impl where
  state := if sgxStatus = sgxSuccess then .STARTED else .COMPLETED
  sgxStatus := sgxStatus

/-- What `start` and `join` wait for. -/
def satisfies (impl : Impl) : Wait → Bool
  | .start => impl.state != .CREATED
  | .join => impl.state == .COMPLETED

end Impl

/-! ## Threads -/

/-- `alive` is behind the check of `is_alive`, `queued` behind `push_back`, and `requested` inside
`ocall_request_thread`. -/
inductive CreatePhase where
  | idle
  | alive
  | queued
  | requested
  | answered (status : SgxStatus)
  | returned (status : SgxStatus)
  deriving DecidableEq, Repr

namespace CreatePhase

def pushed : CreatePhase → Bool
  | idle | alive => false
  | _ => true

/-- The host has been asked for a thread. -/
def asked : CreatePhase → Bool
  | requested | answered _ | returned _ => true
  | _ => false

/-- The host request has not returned. -/
def outstanding : CreatePhase → Bool
  | queued | requested => true
  | _ => false

/-- What `set_state_on_start` has recorded. -/
def recorded : CreatePhase → Option SgxStatus
  | returned status => some status
  | _ => none

end CreatePhase

/-- The host thread that a request has made, with the task that it took. -/
inductive HostPhase (Call : Type) where
  | unspawned
  | spawned
  | failed
  | popped (task : Call)
  | acknowledged (task : Call)
  | counted (task : Call)
  | running (task : Call)
  | completed (task : Call)
  | detached (task : Call)
  deriving DecidableEq, Repr

namespace HostPhase

variable {Call : Type}

def task : HostPhase Call → Option Call
  | unspawned | spawned | failed => none
  | popped task | acknowledged task | counted task | running task | completed task
  | detached task => some task

/-- The thread has a `RunnableCheckpoint`. -/
def isCounted : HostPhase Call → Bool
  | counted _ | running _ | completed _ => true
  | _ => false

/-- What `run` has written last, and to which task. -/
def wrote : HostPhase Call → Option (Call × ThreadState)
  | running task => some (task, .STARTED)
  | completed task | detached task => some (task, .COMPLETED)
  | _ => none

theorem task_of_wrote {phase : HostPhase Call} {task : Call} {value : ThreadState}
    (written : phase.wrote = some (task, value)) : phase.task = some task := by
  cases phase with
  | running other | completed other | detached other =>
      cases written
      rfl
  | _ => cases written

end HostPhase

/-- A thread inside `start` or `join`: a notified one has still to look at the state. -/
structure Waiter (Call : Type) where
  call : Call
  wait : Wait
  notified : Bool
  deriving DecidableEq, Repr

section State

variable (Call Thread : Type)

/-- A call of `create` stands for its `Impl`, its promise and the host thread it asks for too.
`shutdownReturned` is for the proofs only. -/
structure State where
  creates : Call → CreatePhase
  impls : Call → Impl
  queue : List Call
  hosts : Call → HostPhase Call
  promises : Call → Option SgxStatus
  waiters : Thread → Option (Waiter Call)
  shutdownStarted : Bool
  runningThreads : Nat
  shutdowns : Thread → Bool
  shutdownReturned : Bool

def State.initial : State Call Thread where
  creates := fun _ => .idle
  impls := fun _ => .new
  queue := []
  hosts := fun _ => .unspawned
  promises := fun _ => none
  waiters := fun _ => none
  shutdownStarted := false
  runningThreads := 0
  shutdowns := fun _ => false
  shutdownReturned := false

/-- `wake` is a notification or a spurious wakeup. -/
inductive Action where
  | isAlive (call : Call)
  | pushBack (call : Call)
  | requestThread (call : Call)
  | requestFails (call : Call) (status : SgxStatus)
  | answer (call : Call)
  | setStateOnStart (call : Call)
  | attachFails (host : Call) (status : SgxStatus)
  | popFront (host : Call)
  | completeRequest (host : Call)
  | checkpoint (host : Call)
  | runTask (host : Call)
  | taskReturns (host : Call)
  | detach (host : Call)
  | wait (thread : Thread) (wait : Wait) (call : Call)
  | wake (thread : Thread)
  | shutdown (thread : Thread)
  | wakeShutdown (thread : Thread)
  deriving DecidableEq, Repr

end State

variable {Call Thread : Type} [DecidableEq Call] [DecidableEq Thread]

namespace State

variable (state : State Call Thread)

def setCreate (call : Call) (phase : CreatePhase) : State Call Thread :=
  { state with creates := Function.update state.creates call phase }

def setHost (host : Call) (phase : HostPhase Call) : State Call Thread :=
  { state with hosts := Function.update state.hosts host phase }

def setImpl (call : Call) (impl : Impl) : State Call Thread :=
  { state with impls := Function.update state.impls call impl }

/-- `setThreadStartStatus`: the first status stays. -/
def setThreadStartStatus (call : Call) (status : SgxStatus) : State Call Thread :=
  { state with
    promises := Function.update state.promises call
      (some ((state.promises call).getD status)) }

/-- `cond_var_.notify_all()`. -/
def notifyAll (call : Call) : State Call Thread :=
  { state with
    waiters := fun thread => (state.waiters thread).map fun waiter =>
      if waiter.call = call then { waiter with notified := true } else waiter }

/-- `set_state`. -/
def setState (call : Call) (value : ThreadState) : State Call Thread :=
  (state.setImpl call ((state.impls call).setState value)).notifyAll call

/-- One turn of the waiting loop of `start` and `join`. -/
def await (thread : Thread) (call : Call) (wait : Wait) : State Call Thread :=
  { state with
    waiters := Function.update state.waiters thread
      (if (state.impls call).satisfies wait then none else some ⟨call, wait, false⟩) }

/-- One turn of the waiting loop of `shutdown`. -/
def awaitShutdown (thread : Thread) : State Call Thread :=
  { state with
    shutdowns := Function.update state.shutdowns thread (decide (state.runningThreads ≠ 0))
    shutdownReturned := state.shutdownReturned || decide (state.runningThreads = 0) }

end State

/-- `none` where the thread is not at that place, or waits, or where `aex_assert` aborts the
enclave. -/
def step (state : State Call Thread) : Action Call Thread → Option (State Call Thread)
  | .isAlive call =>
      if state.creates call = .idle ∧ state.shutdownStarted = false then
        some (state.setCreate call .alive)
      else none
  | .pushBack call =>
      if state.creates call = .alive then
        some ({ state with queue := state.queue ++ [call] }.setCreate call .queued |>.setImpl call
          .new)
      else none
  | .requestThread call =>
      if state.creates call = .queued then
        some ((state.setCreate call .requested).setHost call .spawned)
      else none
  | .requestFails call status =>
      if state.creates call = .queued ∧ status ≠ sgxSuccess then
        some (state.setCreate call (.answered status))
      else none
  | .answer call =>
      match state.creates call, state.promises call with
      | .requested, some status => some (state.setCreate call (.answered status))
      | _, _ => none
  | .setStateOnStart call =>
      match state.creates call with
      | .answered status =>
          some ((state.setCreate call (.returned status)).setImpl call (.setStateOnStart status))
      | _ => none
  | .attachFails host status =>
      if state.hosts host = .spawned ∧ status ≠ sgxSuccess then
        some ((state.setHost host .failed).setThreadStartStatus host status)
      else none
  | .popFront host =>
      match state.hosts host, state.queue with
      | .spawned, task :: rest =>
          some ({ state with queue := rest }.setHost host (.popped task))
      | _, _ => none
  | .completeRequest host =>
      match state.hosts host with
      | .popped task =>
          some ((state.setHost host (.acknowledged task)).setThreadStartStatus host sgxSuccess)
      | _ => none
  | .checkpoint host =>
      match state.hosts host with
      | .acknowledged task =>
          some ({ state with runningThreads := state.runningThreads + 1 }.setHost host
            (.counted task))
      | _ => none
  | .runTask host =>
      match state.hosts host with
      | .counted task => some ((state.setHost host (.running task)).setState task .STARTED)
      | _ => none
  | .taskReturns host =>
      match state.hosts host with
      | .running task => some ((state.setHost host (.completed task)).setState task .COMPLETED)
      | _ => none
  | .detach host =>
      match state.hosts host with
      | .completed task =>
          some ({ state with runningThreads := state.runningThreads - 1 }.setHost host
            (.detached task))
      | _ => none
  | .wait thread wait call =>
      match state.creates call, state.waiters thread with
      | .returned _, none => some (state.await thread call wait)
      | _, _ => none
  | .wake thread =>
      match state.waiters thread with
      | some waiter => some (state.await thread waiter.call waiter.wait)
      | none => none
  | .shutdown thread =>
      if state.shutdowns thread = false then
        some ({ state with shutdownStarted := true }.awaitShutdown thread)
      else none
  | .wakeShutdown thread =>
      if state.shutdowns thread = true then some (state.awaitShutdown thread) else none

/-! ## What a step can do -/

inductive Stepped (state : State Call Thread) :
    Action Call Thread → State Call Thread → Prop where
  | isAlive {call : Call} (idle : state.creates call = .idle)
      (alive : state.shutdownStarted = false) :
      Stepped state (.isAlive call) (state.setCreate call .alive)
  | pushBack {call : Call} (alive : state.creates call = .alive) :
      Stepped state (.pushBack call)
        (({ state with queue := state.queue ++ [call] }.setCreate call .queued).setImpl call .new)
  | requestThread {call : Call} (queued : state.creates call = .queued) :
      Stepped state (.requestThread call)
        ((state.setCreate call .requested).setHost call .spawned)
  | requestFails {call : Call} {status : SgxStatus} (queued : state.creates call = .queued)
      (failure : status ≠ sgxSuccess) :
      Stepped state (.requestFails call status) (state.setCreate call (.answered status))
  | answer {call : Call} {status : SgxStatus} (requested : state.creates call = .requested)
      (promise : state.promises call = some status) :
      Stepped state (.answer call) (state.setCreate call (.answered status))
  | setStateOnStart {call : Call} {status : SgxStatus}
      (answered : state.creates call = .answered status) :
      Stepped state (.setStateOnStart call)
        ((state.setCreate call (.returned status)).setImpl call (.setStateOnStart status))
  | attachFails {host : Call} {status : SgxStatus} (spawned : state.hosts host = .spawned)
      (failure : status ≠ sgxSuccess) :
      Stepped state (.attachFails host status)
        ((state.setHost host .failed).setThreadStartStatus host status)
  | popFront {host task : Call} {rest : List Call} (spawned : state.hosts host = .spawned)
      (front : state.queue = task :: rest) :
      Stepped state (.popFront host)
        ({ state with queue := rest }.setHost host (.popped task))
  | completeRequest {host task : Call} (popped : state.hosts host = .popped task) :
      Stepped state (.completeRequest host)
        ((state.setHost host (.acknowledged task)).setThreadStartStatus host sgxSuccess)
  | checkpoint {host task : Call} (acknowledged : state.hosts host = .acknowledged task) :
      Stepped state (.checkpoint host)
        ({ state with runningThreads := state.runningThreads + 1 }.setHost host (.counted task))
  | runTask {host task : Call} (counted : state.hosts host = .counted task) :
      Stepped state (.runTask host)
        ((state.setHost host (.running task)).setState task .STARTED)
  | taskReturns {host task : Call} (running : state.hosts host = .running task) :
      Stepped state (.taskReturns host)
        ((state.setHost host (.completed task)).setState task .COMPLETED)
  | detach {host task : Call} (completed : state.hosts host = .completed task) :
      Stepped state (.detach host)
        ({ state with runningThreads := state.runningThreads - 1 }.setHost host (.detached task))
  | wait {thread : Thread} {wait : Wait} {call : Call} {status : SgxStatus}
      (returned : state.creates call = .returned status) (free : state.waiters thread = none) :
      Stepped state (.wait thread wait call) (state.await thread call wait)
  | wake {thread : Thread} {waiter : Waiter Call} (waiting : state.waiters thread = some waiter) :
      Stepped state (.wake thread) (state.await thread waiter.call waiter.wait)
  | shutdown {thread : Thread} (free : state.shutdowns thread = false) :
      Stepped state (.shutdown thread)
        ({ state with shutdownStarted := true }.awaitShutdown thread)
  | wakeShutdown {thread : Thread} (waiting : state.shutdowns thread = true) :
      Stepped state (.wakeShutdown thread) (state.awaitShutdown thread)

theorem stepped_of_step {state next : State Call Thread} {action : Action Call Thread}
    (stepped : step state action = some next) : Stepped state action next := by
  cases action with
  | isAlive call =>
      simp only [step, Option.ite_none_right_eq_some, Option.some.injEq] at stepped
      obtain ⟨⟨idle, alive⟩, rfl⟩ := stepped
      exact .isAlive idle alive
  | pushBack call =>
      simp only [step, Option.ite_none_right_eq_some, Option.some.injEq] at stepped
      obtain ⟨alive, rfl⟩ := stepped
      exact .pushBack alive
  | requestThread call =>
      simp only [step, Option.ite_none_right_eq_some, Option.some.injEq] at stepped
      obtain ⟨queued, rfl⟩ := stepped
      exact .requestThread queued
  | requestFails call status =>
      simp only [step, Option.ite_none_right_eq_some, Option.some.injEq] at stepped
      obtain ⟨⟨queued, failure⟩, rfl⟩ := stepped
      exact .requestFails queued failure
  | answer call =>
      simp only [step] at stepped
      split at stepped
      · rename_i status requested promise
        cases stepped
        exact .answer requested promise
      · cases stepped
  | setStateOnStart call =>
      simp only [step] at stepped
      split at stepped
      · rename_i status answered
        cases stepped
        exact .setStateOnStart answered
      · cases stepped
  | attachFails host status =>
      simp only [step, Option.ite_none_right_eq_some, Option.some.injEq] at stepped
      obtain ⟨⟨spawned, failure⟩, rfl⟩ := stepped
      exact .attachFails spawned failure
  | popFront host =>
      simp only [step] at stepped
      split at stepped
      · rename_i task rest spawned front
        cases stepped
        exact .popFront spawned front
      · cases stepped
  | completeRequest host =>
      simp only [step] at stepped
      split at stepped
      · rename_i task popped
        cases stepped
        exact .completeRequest popped
      · cases stepped
  | checkpoint host =>
      simp only [step] at stepped
      split at stepped
      · rename_i task acknowledged
        cases stepped
        exact .checkpoint acknowledged
      · cases stepped
  | runTask host =>
      simp only [step] at stepped
      split at stepped
      · rename_i task counted
        cases stepped
        exact .runTask counted
      · cases stepped
  | taskReturns host =>
      simp only [step] at stepped
      split at stepped
      · rename_i task running
        cases stepped
        exact .taskReturns running
      · cases stepped
  | detach host =>
      simp only [step] at stepped
      split at stepped
      · rename_i task completed
        cases stepped
        exact .detach completed
      · cases stepped
  | wait thread wait call =>
      simp only [step] at stepped
      split at stepped
      · rename_i status returned free
        cases stepped
        exact .wait returned free
      · cases stepped
  | wake thread =>
      simp only [step] at stepped
      split at stepped
      · rename_i waiter waiting
        cases stepped
        exact .wake waiting
      · cases stepped
  | shutdown thread =>
      simp only [step, Option.ite_none_right_eq_some, Option.some.injEq] at stepped
      obtain ⟨free, rfl⟩ := stepped
      exact .shutdown free
  | wakeShutdown thread =>
      simp only [step, Option.ite_none_right_eq_some, Option.some.injEq] at stepped
      obtain ⟨waiting, rfl⟩ := stepped
      exact .wakeShutdown waiting

end Conclave.Threads
