import ConclaveFormal.Calls.UserCalls

/-!
# Calls are a stack

Each call gets what the function it has reached returns, that function is the one supplied by the
innermost call around it, and the states of both sides are left as they were found.
-/

set_option autoImplicit false

namespace Conclave.Calls.User

open Conclave.Lib Conclave.Common

variable {Callback : Type}

/-! ## Threads between calls -/

/-- The call has left the states of both sides as it found them. -/
def Exit.Restored (exit : Exit Callback) : Prop := exit.after = exit.before

def Thread.calls (thread : Thread Callback) : List (RoutedCall Callback) :=
  thread.exits.map Exit.call

structure Back (before after : Thread Callback) : Prop where
  states : after.states = before.states
  currentEnclaveCall : before.currentEnclaveCall = true → after.currentEnclaveCall = true
  lockHolds : after.lockHolds = before.lockHolds
  numberReceiveCallsExecuting :
    after.numberReceiveCallsExecuting = before.numberReceiveCallsExecuting
  hasReceiveContext : after.hasReceiveContext = before.hasReceiveContext
  restored : (∀ exit ∈ before.exits, exit.Restored) → ∀ exit ∈ after.exits, exit.Restored

theorem Back.refl (thread : Thread Callback) : Back thread thread :=
  ⟨rfl, id, rfl, rfl, rfl, id⟩

theorem Back.trans {first second third : Thread Callback} (back : Back first second)
    (later : Back second third) : Back first third where
  states := later.states.trans back.states
  currentEnclaveCall := later.currentEnclaveCall ∘ back.currentEnclaveCall
  lockHolds := later.lockHolds.trans back.lockHolds
  numberReceiveCallsExecuting :=
    later.numberReceiveCallsExecuting.trans back.numberReceiveCallsExecuting
  hasReceiveContext := later.hasReceiveContext.trans back.hasReceiveContext
  restored := later.restored ∘ back.restored

section Ready

variable (env : EnclaveEnvironment) (scope : Option (HostCallback Callback))
  (thread : Thread Callback)

/-- The thread holds the lock where the enclave's user code must. -/
def Locked : Prop := (env.threadSafe || decide (0 < thread.lockHolds)) = true

structure HostReady : Prop where
  host : thread.states.host.isResponse = false
  enclave : ∃ object, thread.states.enclave = .receive object scope
  outermost : scope = some .receiveFromUntrustedHost → thread.hasReceiveContext = false
  nested : ∀ callback, scope = some (.given callback) → Locked env thread

structure EnclaveReady : Prop where
  host : ∃ object callback, thread.states.host = .intoEnclave object callback ∧
    scope = callback.map .given
  enclave : ∃ object callback, thread.states.enclave = .receive object callback
  inCall : thread.currentEnclaveCall = true
  locked : Locked env thread

/-- The thread is in user code of the side, whose calls have this scope. -/
def Ready : Side → Prop
  | .host => HostReady env scope thread
  | .enclave => EnclaveReady env scope thread

end Ready

theorem Ready.back {env : EnclaveEnvironment} {side : Side}
    {scope : Option (HostCallback Callback)} {before after : Thread Callback}
    (ready : Ready env scope before side) (back : Back before after) :
    Ready env scope after side := by
  cases side with
  | host =>
      obtain ⟨host, enclave, outermost, nested⟩ := ready
      refine ⟨?_, ?_, ?_, ?_⟩
      · rw [back.states]
        exact host
      · rw [back.states]
        exact enclave
      · rw [back.hasReceiveContext]
        exact outermost
      · rw [Locked, back.lockHolds]
        exact nested
  | enclave =>
      obtain ⟨host, enclave, inCall, locked⟩ := ready
      refine ⟨?_, ?_, back.currentEnclaveCall inCall, ?_⟩
      · rw [back.states]
        exact host
      · rw [back.states]
        exact enclave
      · rw [Locked, back.lockHolds]
        exact locked

/-- The method ends so, with these calls in it and with what it has reached. -/
def Runs {α : Type} (method : Method Callback α) (thread : Thread Callback)
    (outcome : Except Throwable α) (inner : List (RoutedCall Callback))
    (reached : Option (HostCallback Callback × Answer)) : Prop :=
  ∃ after, method thread = (outcome, after) ∧ Back thread after ∧
    after.calls = thread.calls ++ inner ∧ after.reached = reached

/-- The user code of the side that is called, in every scope. -/
abbrev CalleeFollows (env : EnclaveEnvironment) (side : Side)
    (callee : Thread Callback → Answer × Thread Callback)
    (expected : Option (HostCallback Callback) → Answer × List (RoutedCall Callback)) : Prop :=
  Behaviour.Follows (fun side scope thread => Ready env scope thread side) Thread.calls Back side
    callee expected

section Enclave

variable {exceptions : Exceptions} {env : EnclaveEnvironment} {side : Side}
  {callee : Thread Callback → Answer × Thread Callback}
  {expected : Option (HostCallback Callback) → Answer × List (RoutedCall Callback)}
  {scope : Option (HostCallback Callback)} {thread : Thread Callback}

theorem apply_runs (follows : CalleeFollows env side callee expected)
    (ready : Ready env scope thread side) (function : HostCallback Callback) :
    Runs (apply function callee) thread (expected scope).1 (expected scope).2
      (some (function, (expected scope).1)) := by
  obtain ⟨answered, called, back⟩ := follows scope thread ready
  rw [← answered]
  refine ⟨{ (callee thread).2 with reached := some (function, (callee thread).1) }, rfl, ?_,
    called, rfl⟩
  exact ⟨back.states, back.currentEnclaveCall, back.lockHolds,
      back.numberReceiveCallsExecuting, back.hasReceiveContext, back.restored⟩

/-! ## Behind a lock -/

theorem checkState_true {condition : Bool} {message : String} (holds : condition = true) :
    checkState exceptions condition message thread = (.ok (), thread) := by
  rw [checkState, if_pos holds]
  rfl

namespace Enclave

theorem withLock_eq {α : Type} {body : Method Callback α} {after : Thread Callback}
    {outcome : Except Throwable α}
    (ran : body { thread with lockHolds := thread.lockHolds + 1 } = (outcome, after)) :
    withLock body thread = (outcome, { after with lockHolds := after.lockHolds - 1 }) := by
  rw [withLock, Attempt.modify_bind]
  exact Attempt.ensuring_eq ran rfl

theorem withLock_runs {α : Type} {body : Method Callback α} {outcome : Except Throwable α}
    {inner : List (RoutedCall Callback)} {reached : Option (HostCallback Callback × Answer)}
    (runs : Runs body { thread with lockHolds := thread.lockHolds + 1 } outcome inner reached) :
    Runs (withLock body) thread outcome inner reached := by
  obtain ⟨after, ran, back, called, noted⟩ := runs
  refine ⟨_, withLock_eq ran, ?_, called, noted⟩
  exact ⟨back.states, back.currentEnclaveCall, Nat.sub_eq_of_eq_add back.lockHolds,
    back.numberReceiveCallsExecuting, back.hasReceiveContext, back.restored⟩

theorem checkStarted_eq (execution : Execution) :
    checkStarted exceptions execution thread =
      (if execution.started then .ok ()
        else .error (exceptions.illegalState (unexpected "Started" "Closed")), thread) := by
  rw [checkStarted]
  cases execution.started with
  | true => rfl
  | false => rfl

variable (exceptions) in
theorem executeReceiveIn_eq {receiveMethod : Method Callback (Option Bytes)}
    (execution : Execution) {answer : Answer} {after : Thread Callback}
    (free : thread.hasReceiveContext = false)
    (ran : receiveMethod { thread with hasReceiveContext := true } = (answer, after)) :
    executeReceiveIn exceptions execution receiveMethod thread =
      (answer.bind fun response =>
        if execution.pendingPostMails = 0 then .ok response
        else .error (exceptions.illegalState (notPosted execution.pendingPostMails)),
        { after with hasReceiveContext := false }) := by
  have ended : Attempt.ensuring receiveMethod
      (Attempt.modify fun thread => { thread with hasReceiveContext := false })
      { thread with hasReceiveContext := true } =
        (answer, { after with hasReceiveContext := false }) := Attempt.ensuring_eq ran rfl
  rw [executeReceiveIn, Attempt.get_bind, Attempt.bind_ok (checkState_true (by rw [free]; rfl)),
    Attempt.modify_bind]
  cases answer with
  | error throwable => exact Attempt.bind_error ended
  | ok response =>
      rw [Attempt.bind_ok ended]
      by_cases posted : execution.pendingPostMails = 0
      · rw [Attempt.bind_ok (checkState_true (decide_eq_true posted))]
        simp only [Except.bind, if_pos posted]
        rfl
      · rw [checkState, decide_eq_false posted]
        simp only [Except.bind, if_neg posted]
        rfl

/-- The method runs so on every thread like this one that may run user code. -/
def RunsInside (env : EnclaveEnvironment) (method : Method Callback (Option Bytes))
    (thread : Thread Callback) (answer : Answer) (inner : List (RoutedCall Callback))
    (reached : Option (HostCallback Callback × Answer)) : Prop :=
  ∀ entered : Thread Callback, entered.states = thread.states →
    entered.currentEnclaveCall = thread.currentEnclaveCall → entered.exits = thread.exits →
    Locked env entered → Runs method entered answer inner reached

theorem executeReceive_threadSafe {receiveMethod : Method Callback (Option Bytes)}
    {execution : Execution} {answer : Answer} {inner : List (RoutedCall Callback)}
    {reached : Option (HostCallback Callback × Answer)} (safe : env.threadSafe = true)
    (started : execution.started = true)
    (runs : RunsInside env receiveMethod thread answer inner reached) :
    Runs (executeReceive exceptions env execution receiveMethod) thread answer inner reached := by
  have passes : checkStarted exceptions execution
      { thread with lockHolds := thread.lockHolds + 1 } =
        (.ok (), { thread with lockHolds := thread.lockHolds + 1 }) := by
    rw [checkStarted_eq, if_pos started]
  have counts : (do
      checkStarted exceptions execution
      Attempt.modify fun thread =>
        { thread with
          numberReceiveCallsExecuting := thread.numberReceiveCallsExecuting + 1 })
      { thread with lockHolds := thread.lockHolds + 1 } =
        (.ok (), { thread with
          lockHolds := thread.lockHolds + 1
          numberReceiveCallsExecuting := thread.numberReceiveCallsExecuting + 1 }) :=
    Attempt.bind_ok passes
  obtain ⟨after, ran, back, called, noted⟩ := runs { thread with
    numberReceiveCallsExecuting := thread.numberReceiveCallsExecuting + 1 } rfl rfl rfl
    (by rw [Locked, safe, Bool.true_or])
  refine ⟨{ after with
    numberReceiveCallsExecuting := after.numberReceiveCallsExecuting - 1 }, ?_, ?_, called, noted⟩
  · rw [executeReceive, if_pos safe, Attempt.bind_ok (withLock_eq counts)]
    exact Attempt.ensuring_eq ran rfl
  · exact ⟨back.states, back.currentEnclaveCall, back.lockHolds,
      Nat.sub_eq_of_eq_add back.numberReceiveCallsExecuting, back.hasReceiveContext,
      back.restored⟩

theorem executeReceive_refused {receiveMethod : Method Callback (Option Bytes)}
    {execution : Execution} (closed : execution.started = false) :
    Runs (executeReceive exceptions env execution receiveMethod) thread
      (.error (exceptions.illegalState (unexpected "Started" "Closed"))) [] thread.reached := by
  have refused : ∀ entered : Thread Callback, checkStarted exceptions execution entered =
      (.error (exceptions.illegalState (unexpected "Started" "Closed")), entered) := by
    intro entered
    rw [checkStarted_eq, closed]
    rfl
  have nothing : ∀ {α : Type} (next : Unit → Method Callback α),
      Runs (withLock (checkStarted exceptions execution >>= next)) thread
        (.error (exceptions.illegalState (unexpected "Started" "Closed"))) [] thread.reached :=
    fun next => withLock_runs ⟨_, Attempt.bind_error (refused _), Back.refl _,
      (List.append_nil _).symm, rfl⟩
  rw [executeReceive]
  by_cases safe : env.threadSafe = true
  · rw [if_pos safe]
    obtain ⟨after, ran, rest⟩ := nothing fun _ => Attempt.modify fun thread =>
      { thread with numberReceiveCallsExecuting := thread.numberReceiveCallsExecuting + 1 }
    exact ⟨after, Attempt.bind_error ran, rest⟩
  · rw [if_neg safe]
    exact nothing _

theorem executeReceive_locked {receiveMethod : Method Callback (Option Bytes)}
    {execution : Execution} {answer : Answer} {inner : List (RoutedCall Callback)}
    {reached : Option (HostCallback Callback × Answer)} (single : env.threadSafe = false)
    (started : execution.started = true) (free : thread.hasReceiveContext = false)
    (runs : RunsInside env receiveMethod thread answer inner reached) :
    Runs (executeReceive exceptions env execution receiveMethod) thread
      (executed exceptions env execution answer) inner reached := by
  have locked : ∀ entered : Thread Callback, 0 < entered.lockHolds → Locked env entered := by
    intro entered held
    rw [Locked, decide_eq_true held, Bool.or_true]
  rw [executeReceive, if_neg (by rw [single]; exact Bool.false_ne_true)]
  apply withLock_runs
  have passes : checkStarted exceptions execution
      { thread with lockHolds := thread.lockHolds + 1 } =
        (.ok (), { thread with lockHolds := thread.lockHolds + 1 }) := by
    rw [checkStarted_eq, if_pos started]
  cases persistent : env.enablePersistentMap with
  | false =>
      obtain ⟨after, ran, rest⟩ := runs { thread with lockHolds := thread.lockHolds + 1 }
        rfl rfl rfl (locked _ (Nat.succ_pos _))
      refine ⟨after, ?_, rest⟩
      rw [Attempt.bind_ok passes, if_neg Bool.false_ne_true, ran]
      cases answer with
      | error throwable => rfl
      | ok response => rw [executed, persistent, Bool.not_false, Bool.or_true, if_pos rfl]
  | true =>
      obtain ⟨after, ran, back, called, noted⟩ := runs
        { thread with lockHolds := thread.lockHolds + 1, hasReceiveContext := true }
        rfl rfl rfl (locked _ (Nat.succ_pos _))
      have unset : ({ thread with lockHolds := thread.lockHolds + 1 } :
          Thread Callback).hasReceiveContext = false := free
      have received := executeReceiveIn_eq exceptions execution unset ran
      refine ⟨{ after with hasReceiveContext := false }, ?_, ⟨back.states,
        back.currentEnclaveCall, back.lockHolds, back.numberReceiveCallsExecuting, free.symm,
        back.restored⟩, called, noted⟩
      rw [Attempt.bind_ok passes, if_pos rfl]
      cases answer with
      | error throwable => exact Attempt.bind_error received
      | ok response =>
          rw [executed, single, persistent, Bool.not_true, Bool.or_false,
            if_neg Bool.false_ne_true]
          by_cases posted : execution.pendingPostMails = 0
          · simp only [Except.bind, if_pos posted] at received
            rw [Attempt.bind_ok received, if_pos posted, sendSealedState]
            cases execution.sealing with
            | none => rfl
            | some throwable => rfl
          · simp only [Except.bind, if_neg posted] at received
            rw [Attempt.bind_error received, if_neg posted]

/-- What a call in this scope gets from the function that is to run. -/
theorem executeReceive_runs {receiveMethod : Method Callback (Option Bytes)}
    {execution : Execution} {answer : Answer} {inner : List (RoutedCall Callback)}
    {reached : Option (HostCallback Callback × Answer)}
    (started : execution.started = true) (free : thread.hasReceiveContext = false)
    (runs : RunsInside env receiveMethod thread answer inner reached) :
    Runs (executeReceive exceptions env execution receiveMethod) thread
      (executed exceptions env execution answer) inner reached := by
  cases safe : env.threadSafe with
  | true =>
      have same : executed exceptions env execution answer = answer := by
        cases answer with
        | error throwable => rfl
        | ok response => rw [executed, safe, Bool.true_or, if_pos rfl]
      rw [same]
      exact executeReceive_threadSafe safe started runs
  | false => exact executeReceive_locked safe started free runs

end Enclave

/-! ## Replies -/

/-- A handler ends: `set` is what the message with its response does. -/
def replied (set : Bytes → Thread Callback → Thread Callback) (answer : Answer)
    (after : Thread Callback) : Except Throwable Unit × Thread Callback :=
  match answer with
  | .ok none => (.ok (), after)
  | .ok (some bytes) => (.ok (), set bytes after)
  | .error throwable => (.error throwable, after)

def hostResponse (bytes : Bytes) : Thread Callback → Thread Callback :=
  Thread.setHost (.response bytes)

def enclaveResponse (bytes : Bytes) : Thread Callback → Thread Callback :=
  Thread.setEnclave (.response bytes)

theorem replied_ok (set : Bytes → Thread Callback → Thread Callback) (response : Option Bytes)
    (after : Thread Callback) : replied set (.ok response) after =
      (.ok (), (replied set (.ok response) after).2) := by
  cases response with
  | none => rfl
  | some bytes => rfl

/-- The handler ends so, with these calls in it and with what it has reached. -/
def Replies (set : Bytes → Thread Callback → Thread Callback) (handler : Method Callback Unit)
    (thread : Thread Callback) (answer : Answer) (inner : List (RoutedCall Callback))
    (reached : Option (HostCallback Callback × Answer)) : Prop :=
  ∃ after, handler thread = replied set answer after ∧ Back thread after ∧
    after.calls = thread.calls ++ inner ∧ after.reached = reached

theorem Replies.throw (set : Bytes → Thread Callback → Thread Callback) (thread : Thread Callback)
    (throwable : Throwable) :
    Replies set (Attempt.throw throwable) thread (.error throwable) [] thread.reached :=
  ⟨thread, rfl, Back.refl thread, (List.append_nil _).symm, rfl⟩

/-- The response of a function is sent after it has run. -/
theorem Runs.replies {set : Bytes → Thread Callback → Thread Callback}
    {method : Method Callback (Option Bytes)} {sendCallReturn : Option Bytes → Method Callback Unit}
    {answer : Answer} {inner : List (RoutedCall Callback)}
    {reached : Option (HostCallback Callback × Answer)}
    (runs : Runs method thread answer inner reached)
    (sends : ∀ after : Thread Callback, Back thread after →
      ∀ response, sendCallReturn response after = replied set (.ok response) after) :
    Replies set (method >>= sendCallReturn) thread answer inner reached := by
  obtain ⟨after, ran, back, called, noted⟩ := runs
  refine ⟨after, ?_, back, called, noted⟩
  cases answer with
  | error throwable => exact Attempt.bind_error ran
  | ok response =>
      rw [Attempt.bind_ok ran]
      exact sends after back response

variable (exceptions) in
theorem send_replied {set : Bytes → Thread Callback → Thread Callback}
    {handler : Method Callback Unit} {answer : Answer} {after : Thread Callback}
    (side : Side) (handled : handler thread = replied set answer after) :
    send exceptions side handler thread =
      replied set (answer.mapError (exceptions.received side)) after := by
  cases answer with
  | error throwable => exact Attempt.handle_error handled
  | ok response =>
      cases response with
      | none => exact Attempt.handle_ok handled
      | some bytes => exact Attempt.handle_ok handled

/-! ## Calls from the host -/

/-- The thread when the enclave handles the message of a call. -/
def enteredEnclave (request : Request Callback .host) (thread : Thread Callback) :
    Thread Callback :=
  { thread.setHost (.intoEnclave thread.objects request.callback) with
    currentEnclaveCall := true
    objects := thread.objects + 1 }

namespace EnclaveHost

variable (exceptions) in
theorem revertState_replied (answer : Answer) {after : Thread Callback} {object : Nat}
    {callback : Option Callback} (previous : HostCallState Callback)
    (own : after.states.host = .intoEnclave object callback) :
    ∃ response, revertState exceptions object previous (replied hostResponse answer after).2 =
        (.ok response, after.setHost previous) ∧
      ∀ value, answer = .ok value → response = value := by
  have unchanged : revertState exceptions object previous after =
      (.ok none, after.setHost previous) := by
    rw [revertState, Attempt.get_bind, own, HostCallState.isObject, if_pos (decide_eq_true rfl)]
    rfl
  cases answer with
  | error throwable => exact ⟨none, unchanged, fun _ impossible => by cases impossible⟩
  | ok response =>
      refine ⟨response, ?_, fun _ same => Except.ok.inj same⟩
      cases response with
      | none => exact unchanged
      | some bytes => rfl

variable (exceptions) in
theorem callIntoEnclave_eq {body : Method Callback Unit} {callback : Option Callback}
    {answer : Answer} {after : Thread Callback} (idle : thread.states.host.isResponse = false)
    (ran : body ({ thread.setHost (.intoEnclave thread.objects callback) with
      objects := thread.objects + 1 }) = replied hostResponse answer after)
    (own : after.states.host = .intoEnclave thread.objects callback) :
    callIntoEnclave exceptions callback body thread =
      (answer.mapError (rethrown exceptions), after.setHost thread.states.host) := by
  have created : newObject thread =
      (.ok thread.objects, { thread with objects := thread.objects + 1 }) := rfl
  obtain ⟨response, reverted, same⟩ :=
    revertState_replied exceptions answer thread.states.host own
  rw [callIntoEnclave, Attempt.bind_ok created, Attempt.get_bind, Attempt.modify_bind,
    Attempt.bind_ok (checkState_true (by rw [idle]; rfl))]
  cases answer with
  | error throwable =>
      exact Attempt.bind_error (Attempt.tryFinally_error (Attempt.handle_error ran) reverted)
  | ok value =>
      have fine := ran.trans (replied_ok hostResponse value after)
      rw [← same value rfl]
      exact Attempt.bind_ok (Attempt.tryFinally_ok (Attempt.handle_ok fine) reverted)

/-- What the call throws is what the transport and both layers make of the exception. -/
theorem callEnclave_runs {request : Request Callback .host} {answer : Answer}
    {inner : List (RoutedCall Callback)} {reached : Option (HostCallback Callback × Answer)}
    (idle : thread.states.host.isResponse = false)
    (replies : Replies hostResponse
      (Enclave.onUntrustedHost exceptions env request.execution callee)
      (enteredEnclave request thread) answer inner reached) :
    Runs (callEnclave exceptions env request callee) thread
      (answer.mapError (thrown exceptions .host)) inner reached := by
  obtain ⟨after, handled, back, called, noted⟩ := replies
  have own : after.states.host = .intoEnclave thread.objects request.callback := by
    rw [back.states]
    rfl
  have message : Enclave.handleCall
      (Enclave.onUntrustedHost exceptions env request.execution callee)
      { thread.setHost (.intoEnclave thread.objects request.callback) with
        objects := thread.objects + 1 } = replied hostResponse answer after := handled
  have through := callIntoEnclave_eq exceptions idle
    (send_replied exceptions .host message) own
  refine ⟨after.setHost thread.states.host, ?_, ⟨?_, fun _ => back.currentEnclaveCall rfl,
    back.lockHolds, back.numberReceiveCallsExecuting, back.hasReceiveContext, back.restored⟩,
    called, noted⟩
  · cases answer with
    | ok response => exact Attempt.handle_ok through
    | error throwable =>
        rw [callEnclave, Attempt.handle_error through, Except.mapError, thrown]
        by_cases decryption : exceptions.kind (rethrown exceptions
            (exceptions.received .host throwable)) = .mailDecryptionException
        · simp only [if_pos decryption]
          rfl
        · simp only [if_neg decryption]
          rfl
  · rw [Thread.setHost, back.states]
    rfl

end EnclaveHost

/-! ## Calls from the enclave -/

/-- The thread when the host handles the message of a call. -/
def enteredHost (request : Request Callback .enclave) (thread : Thread Callback) :
    Thread Callback :=
  { thread.setEnclave (.receive thread.objects (request.callback.map .given)) with
    objects := thread.objects + 1 }

namespace Enclave

variable (exceptions) in
theorem revertState_replied (answer : Answer) {after : Thread Callback} {object : Nat}
    {callback : Option (HostCallback Callback)} (previous : EnclaveCallState Callback)
    (own : after.states.enclave = .receive object callback) :
    ∃ response, revertState exceptions object previous (replied enclaveResponse answer after).2 =
        (.ok response, after.setEnclave previous) ∧
      ∀ value, answer = .ok value → response = value := by
  have unchanged : revertState exceptions object previous after =
      (.ok none, after.setEnclave previous) := by
    rw [revertState, Attempt.get_bind, own, EnclaveCallState.isObject,
      if_pos (decide_eq_true rfl)]
    rfl
  cases answer with
  | error throwable => exact ⟨none, unchanged, fun _ impossible => by cases impossible⟩
  | ok response =>
      refine ⟨response, ?_, fun _ same => Except.ok.inj same⟩
      cases response with
      | none => exact unchanged
      | some bytes => rfl

theorem checkStateIsReceive_eq {object : Nat} {callback : Option (HostCallback Callback)}
    (receives : thread.states.enclave = .receive object callback) :
    checkStateIsReceive exceptions thread = (.ok callback, thread) := by
  rw [checkStateIsReceive, Attempt.get_bind, receives]
  rfl

theorem transitionStateFromReceive_eq {object : Nat} {callback : Option (HostCallback Callback)}
    (receives : thread.states.enclave = .receive object callback)
    (state : EnclaveCallState Callback) :
    transitionStateFromReceive exceptions state thread =
      (.ok thread.states.enclave, thread.setEnclave state) := by
  rw [transitionStateFromReceive, Attempt.get_bind,
    Attempt.bind_ok (checkStateIsReceive_eq receives)]
  rfl

theorem callUntrustedHost_runs {request : Request Callback .enclave} {answer : Answer}
    {inner : List (RoutedCall Callback)} {reached : Option (HostCallback Callback × Answer)}
    {object : Nat} {previous : Option (HostCallback Callback)}
    (inCall : thread.currentEnclaveCall = true)
    (receives : thread.states.enclave = .receive object previous)
    (replies : Replies enclaveResponse
      (EnclaveHost.handleCall exceptions (EnclaveHost.onUntrustedHost exceptions callee))
      (enteredHost request thread) answer inner reached) :
    Runs (callUntrustedHost exceptions request callee) thread
      (answer.mapError (thrown exceptions .enclave)) inner reached := by
  obtain ⟨after, handled, back, called, noted⟩ := replies
  have own : after.states.enclave =
      .receive thread.objects (request.callback.map .given) := by
    rw [back.states]
    rfl
  have created : newObject thread =
      (.ok thread.objects, { thread with objects := thread.objects + 1 }) := rfl
  have receives' : ({ thread with objects := thread.objects + 1 } :
      Thread Callback).states.enclave = .receive object previous := receives
  have moved : transitionStateFromReceive exceptions
      (.receive thread.objects (request.callback.map .given))
      { thread with objects := thread.objects + 1 } =
        (.ok thread.states.enclave, enteredHost request thread) :=
    transitionStateFromReceive_eq receives' _
  obtain ⟨response, reverted, same⟩ :=
    revertState_replied exceptions (answer.mapError (thrown exceptions .enclave))
      thread.states.enclave own
  have sent := send_replied exceptions .enclave handled
  refine ⟨after.setEnclave thread.states.enclave, ?_, ⟨?_, back.currentEnclaveCall,
    back.lockHolds, back.numberReceiveCallsExecuting, back.hasReceiveContext, back.restored⟩,
    called, noted⟩
  · rw [callUntrustedHost, Attempt.get_bind, Attempt.bind_ok (checkState_true inCall),
      Attempt.bind_ok created, Attempt.bind_ok moved]
    cases answer with
    | error throwable =>
        exact Attempt.bind_error (Attempt.tryFinally_error sent reverted)
    | ok value =>
        have fine := sent.trans (replied_ok enclaveResponse value after)
        rw [same value rfl] at reverted
        exact Attempt.bind_ok (Attempt.tryFinally_ok fine reverted)
  · rw [Thread.setEnclave, back.states]
    rfl

end Enclave

/-! ## What a call reaches -/

theorem EnclaveHost.handleCall_into {onMessage : Option Callback → Method Callback Unit}
    {object : Nat} {callback : Option Callback}
    (into : thread.states.host = .intoEnclave object callback) :
    EnclaveHost.handleCall exceptions onMessage thread = onMessage callback thread := by
  rw [EnclaveHost.handleCall, Attempt.get_bind, into]

theorem Enclave.sendCallReturn_replied {object : Nat} {callback : Option Callback}
    (into : thread.states.host = .intoEnclave object callback) (response : Option Bytes) :
    Enclave.sendCallReturn exceptions response thread =
      replied hostResponse (.ok response) thread := by
  cases response with
  | none => rfl
  | some bytes =>
      have handled : EnclaveHost.handleCall exceptions
          (fun _ => EnclaveHost.onCallReturn bytes) thread =
            (.ok (), hostResponse bytes thread) := EnclaveHost.handleCall_into into
      exact Attempt.handle_ok handled

theorem EnclaveHost.sendCallReturn_replied (inCall : thread.currentEnclaveCall = true)
    (response : Option Bytes) :
    EnclaveHost.sendCallReturn exceptions response thread =
      replied enclaveResponse (.ok response) thread := by
  cases response with
  | none => rfl
  | some bytes =>
      have unchanged : { thread with currentEnclaveCall := true } = thread := by
        rw [← inCall]
      have handled : Enclave.handleCall (Enclave.onCallReturn bytes) thread =
          (.ok (), enclaveResponse bytes { thread with currentEnclaveCall := true }) := rfl
      rw [unchanged] at handled
      rw [EnclaveHost.sendCallReturn, send]
      exact Attempt.handle_ok handled

variable (exceptions) in
/-- The method ends as the call that is expected, with the calls in it. -/
def CallRuns (env : EnclaveEnvironment) (request : Request Callback side)
    (method : Method Callback (Option Bytes)) (thread : Thread Callback)
    (scope : Option (HostCallback Callback))
    (expected : Option (HostCallback Callback) → Answer × List (RoutedCall Callback)) : Prop :=
  ∃ result inner reached, Runs method thread result inner reached ∧
    (routing exceptions env).call request expected scope =
      (result, inner ++ [⟨side, request, reached, result⟩])

/-- User code of the enclave runs in the call, with what the call supplies as its scope. -/
theorem apply_inside (follows : CalleeFollows env .enclave callee expected)
    (request : Request Callback .host) (ready : HostReady env scope thread)
    (function : HostCallback Callback) :
    Enclave.RunsInside env (apply function callee) (enteredEnclave request thread)
      (expected (request.callback.map .given)).1 (expected (request.callback.map .given)).2
      (some (function, (expected (request.callback.map .given)).1)) := by
  intro entered states inCall exits locked
  obtain ⟨object, receives⟩ := ready.enclave
  have inside : EnclaveReady env (request.callback.map .given) entered := by
    refine ⟨⟨thread.objects, request.callback, ?_, rfl⟩, ⟨object, scope, ?_⟩, inCall, locked⟩
    · rw [states]
      rfl
    · rw [states]
      exact receives
  obtain ⟨after, ran, back, called, noted⟩ := apply_runs follows inside function
  exact ⟨after, ran, back, called, noted⟩

theorem route_replies {request : Request Callback .host} {callback : HostCallback Callback}
    {answer : Answer} {inner : List (RoutedCall Callback)}
    {reached : Option (HostCallback Callback × Answer)}
    (ready : HostReady env (some callback) thread)
    (runs : Runs (Enclave.route exceptions env request.execution callee callback)
      (enteredEnclave request thread) answer inner reached) :
    Replies hostResponse (Enclave.onUntrustedHost exceptions env request.execution callee)
      (enteredEnclave request thread) answer inner reached := by
  obtain ⟨object, receives⟩ := ready.enclave
  have found : Enclave.checkStateIsReceive exceptions (enteredEnclave request thread) =
      (.ok (some callback), enteredEnclave request thread) :=
    Enclave.checkStateIsReceive_eq receives
  have sends : ∀ after : Thread Callback, Back (enteredEnclave request thread) after →
      ∀ response, Enclave.sendCallReturn exceptions response after =
        replied hostResponse (.ok response) after := by
    intro after back response
    have into : after.states.host = .intoEnclave thread.objects request.callback := by
      rw [back.states]
      rfl
    exact Enclave.sendCallReturn_replied into response
  obtain ⟨after, handled, rest⟩ := runs.replies sends
  refine ⟨after, ?_, rest⟩
  rw [Enclave.onUntrustedHost, Attempt.bind_ok found]
  exact handled

theorem callEnclave_follows (follows : CalleeFollows env .enclave callee expected)
    (request : Request Callback .host) (ready : HostReady env scope thread)
    (fresh : thread.reached = none) :
    CallRuns exceptions env request (EnclaveHost.callEnclave exceptions env request callee)
      thread scope expected := by
  cases scope with
  | none =>
      obtain ⟨object, receives⟩ := ready.enclave
      have found : Enclave.checkStateIsReceive exceptions (enteredEnclave request thread) =
          (.ok none, enteredEnclave request thread) := Enclave.checkStateIsReceive_eq receives
      have replies : Replies hostResponse
          (Enclave.onUntrustedHost exceptions env request.execution callee)
          (enteredEnclave request thread) (.error (exceptions.illegalState Enclave.noCallback)) []
          none := by
        obtain ⟨after, handled, back, called, noted⟩ := Replies.throw hostResponse
          (enteredEnclave request thread) (exceptions.illegalState Enclave.noCallback)
        refine ⟨after, ?_, back, called, noted.trans fresh⟩
        rw [Enclave.onUntrustedHost, Attempt.bind_ok found]
        exact handled
      refine ⟨_, [], none, ?_, Behaviour.Routing.call_refused expected rfl⟩
      exact EnclaveHost.callEnclave_runs ready.host replies
  | some function =>
      cases function with
      | given callback =>
          refine ⟨_, _, _, ?_, Behaviour.Routing.call_reached expected rfl⟩
          refine EnclaveHost.callEnclave_runs ready.host (route_replies ready ?_)
          have locked : Locked env (enteredEnclave request thread) := ready.nested callback rfl
          obtain ⟨after, ran, rest⟩ := apply_inside follows request ready (.given callback)
            (enteredEnclave request thread) rfl rfl rfl locked
          refine ⟨after, ?_, rest⟩
          rw [Enclave.route, Attempt.get_bind, Attempt.bind_ok (checkState_true locked)]
          exact ran
      | receiveFromUntrustedHost =>
          have free : (enteredEnclave request thread).hasReceiveContext = false :=
            ready.outermost rfl
          cases started : request.execution.started with
          | true =>
              have reached : (routing exceptions env).route request
                  (some .receiveFromUntrustedHost) =
                    .ok (.receiveFromUntrustedHost : HostCallback Callback) := if_pos started
              refine ⟨_, _, _, ?_, Behaviour.Routing.call_reached expected reached⟩
              refine EnclaveHost.callEnclave_runs ready.host (route_replies ready ?_)
              exact Enclave.executeReceive_runs started free (apply_inside follows request ready _)
          | false =>
              have refused : (routing exceptions env).route request
                  (some (.receiveFromUntrustedHost : HostCallback Callback)) =
                    .error (.error (thrown exceptions .host
                      (exceptions.illegalState (unexpected "Started" "Closed")))) :=
                if_neg (by rw [started]; exact Bool.false_ne_true)
              have runs : Runs (Enclave.route exceptions env request.execution callee
                  .receiveFromUntrustedHost) (enteredEnclave request thread)
                  (.error (exceptions.illegalState (unexpected "Started" "Closed"))) [] none := by
                rw [← fresh]
                exact Enclave.executeReceive_refused started
              refine ⟨_, [], none, ?_, Behaviour.Routing.call_refused expected refused⟩
              exact EnclaveHost.callEnclave_runs ready.host (route_replies ready runs)

theorem callUntrustedHost_follows (follows : CalleeFollows env .host callee expected)
    (request : Request Callback .enclave) (ready : EnclaveReady env scope thread)
    (fresh : thread.reached = none) :
    CallRuns exceptions env request (Enclave.callUntrustedHost exceptions request callee)
      thread scope expected := by
  obtain ⟨object, callback, into, rfl⟩ := ready.host
  obtain ⟨_, _, receives⟩ := ready.enclave
  have handles : EnclaveHost.handleCall exceptions (EnclaveHost.onUntrustedHost exceptions callee)
      (enteredHost request thread) =
        EnclaveHost.onUntrustedHost exceptions callee callback (enteredHost request thread) :=
    EnclaveHost.handleCall_into into
  cases callback with
  | none =>
      have replies : Replies enclaveResponse
          (EnclaveHost.handleCall exceptions (EnclaveHost.onUntrustedHost exceptions callee))
          (enteredHost request thread)
          (.error (exceptions.illegalArgument EnclaveHost.noCallback)) [] none := by
        obtain ⟨after, handled, back, called, noted⟩ := Replies.throw enclaveResponse
          (enteredHost request thread) (exceptions.illegalArgument EnclaveHost.noCallback)
        exact ⟨after, handles.trans handled, back, called, noted.trans fresh⟩
      refine ⟨_, [], none, ?_, Behaviour.Routing.call_refused expected rfl⟩
      exact Enclave.callUntrustedHost_runs ready.inCall receives replies
  | some callback =>
      refine ⟨_, _, _, ?_, Behaviour.Routing.call_reached expected rfl⟩
      refine Enclave.callUntrustedHost_runs ready.inCall receives ?_
      have inside : HostReady env (request.callback.map .given) (enteredHost request thread) := by
        refine ⟨?_, ⟨thread.objects, rfl⟩, ?_, fun _ _ => ready.locked⟩
        · change thread.states.host.isResponse = false
          rw [into]
          rfl
        · intro outermost
          cases supplied : request.callback with
          | none =>
              rw [supplied] at outermost
              cases outermost
          | some other =>
              rw [supplied] at outermost
              cases outermost
      have sends : ∀ after : Thread Callback, Back (enteredHost request thread) after →
          ∀ response, EnclaveHost.sendCallReturn exceptions response after =
            replied enclaveResponse (.ok response) after := by
        intro after back response
        exact EnclaveHost.sendCallReturn_replied (back.currentEnclaveCall ready.inCall) response
      obtain ⟨after, handled, rest⟩ :=
        (apply_runs follows inside (.given callback)).replies sends
      exact ⟨after, handles.trans handled, rest⟩

theorem Ready.unnoted (ready : Ready env scope thread side) :
    Ready env scope { thread with reached := none } side := by
  cases side with
  | host => exact ⟨ready.host, ready.enclave, ready.outermost, ready.nested⟩
  | enclave => exact ⟨ready.host, ready.enclave, ready.inCall, ready.locked⟩

theorem outgoingCall_runs (follows : CalleeFollows env side.other callee expected)
    (request : Request Callback side) (ready : Ready env scope thread side)
    (fresh : thread.reached = none) :
    CallRuns exceptions env request (outgoingCall exceptions env request callee) thread scope
      expected := by
  cases side with
  | host => exact callEnclave_follows follows request ready fresh
  | enclave => exact callUntrustedHost_follows follows request ready fresh

/-- The call is noted with states that are the same before and after it. -/
theorem performCall_follows (follows : CalleeFollows env side.other callee expected)
    (request : Request Callback side) :
    CalleeFollows env side (performCall exceptions env request callee)
      ((routing exceptions env).call request expected) := by
  intro scope thread ready
  obtain ⟨result, inner, reached, ⟨after, ran, back, called, noted⟩, routed⟩ :=
    outgoingCall_runs follows request ready.unnoted rfl
  rw [performCall, ran, routed]
  refine ⟨rfl, ?_, ⟨back.states, back.currentEnclaveCall, back.lockHolds,
    back.numberReceiveCallsExecuting, back.hasReceiveContext, ?_⟩⟩
  · change (after.exits ++ _).map Exit.call = _
    rw [List.map_append, List.map_singleton, noted, ← List.append_assoc]
    exact congrArg (· ++ _) called
  · intro before exit isIn
    rcases List.mem_append.mp isIn with earlier | last
    · exact back.restored before exit earlier
    · rw [List.mem_singleton.mp last]
      exact back.states

/-! ## Every tree -/

theorem ready_new (env : EnclaveEnvironment) :
    Ready env (some .receiveFromUntrustedHost) (Thread.new Callback) .host :=
  ⟨rfl, ⟨0, rfl⟩, fun _ => rfl, fun _ impossible => by cases impossible⟩

/-- A call that returns, returns what the function has returned; and it does return that, unless
the enclave fails to seal its state behind the function. -/
structure Exact (env : EnclaveEnvironment) (call : RoutedCall Callback) : Prop where
  returned : ∀ response, call.result = .ok response →
    ∃ function, call.reached = some (function, .ok response)
  returns : ∀ function response, call.reached = some (function, .ok response) →
    call.result = .ok response ∨ function = .receiveFromUntrustedHost ∧
      env.threadSafe = false ∧ env.enablePersistentMap = true ∧
        (call.request.execution.pendingPostMails ≠ 0 ∨ call.request.execution.sealing ≠ none)

theorem executed_eq_ok {execution : Execution} {answer : Answer} {response : Option Bytes}
    (returned : executed exceptions env execution answer = .ok response) :
    answer = .ok response := by
  cases answer with
  | error throwable => cases returned
  | ok value =>
      rw [executed] at returned
      by_cases plain : (env.threadSafe || !env.enablePersistentMap) = true
      · rwa [if_pos plain] at returned
      · rw [if_neg plain] at returned
        by_cases posted : execution.pendingPostMails = 0
        · rw [if_pos posted] at returned
          cases sealing : execution.sealing with
          | none => simpa only [sealing] using returned
          | some throwable =>
              simp only [sealing] at returned
              cases returned
        · rw [if_neg posted] at returned
          cases returned

variable (exceptions env) in
theorem executed_ok (execution : Execution) (response : Option Bytes) :
    executed exceptions env execution (.ok response) = .ok response ∨
      env.threadSafe = false ∧ env.enablePersistentMap = true ∧
        (execution.pendingPostMails ≠ 0 ∨ execution.sealing ≠ none) := by
  rw [executed]
  by_cases plain : (env.threadSafe || !env.enablePersistentMap) = true
  · rw [if_pos plain]
    exact Or.inl rfl
  · have sealing : env.threadSafe = false ∧ env.enablePersistentMap = true := by
      simpa using plain
    rw [if_neg plain]
    by_cases posted : execution.pendingPostMails = 0
    · rw [if_pos posted]
      cases sealed : execution.sealing with
      | none => exact Or.inl rfl
      | some throwable => exact Or.inr ⟨sealing.1, sealing.2, Or.inr (Option.some_ne_none _)⟩
    · exact Or.inr ⟨sealing.1, sealing.2, Or.inl posted⟩

theorem exact_reached (request : Request Callback side) (function : HostCallback Callback)
    (answer : Answer) :
    Exact env ⟨side, request, some (function, answer),
      (routing exceptions env).receive request function answer⟩ := by
  have conveyed : ∀ ended : Answer, ∀ response : Option Bytes,
      ended.mapError (thrown exceptions side) = .ok response → ended = .ok response := by
    intro ended response same
    cases ended with
    | error throwable => cases same
    | ok value => exact same
  refine ⟨?_, ?_⟩
  · intro response returned
    have ended := conveyed _ response returned
    refine ⟨function, ?_⟩
    cases function with
    | receiveFromUntrustedHost => rw [executed_eq_ok ended]
    | given callback => rw [show answer = .ok response from ended]
  · intro other response reached
    cases reached
    cases function with
    | given callback => exact Or.inl rfl
    | receiveFromUntrustedHost =>
        rcases executed_ok exceptions env request.execution response with plain | failed
        · left
          exact congrArg (Except.mapError (thrown exceptions side)) plain
        · exact Or.inr ⟨rfl, failed⟩

theorem exact_refused (request : Request Callback side) (result : Answer)
    (refused : (routing exceptions env).route request scope = .error result) :
    Exact env ⟨side, request, none, result⟩ := by
  have threw : ∃ throwable, result = .error throwable := by
    cases scope with
    | none =>
        cases refused
        exact ⟨_, rfl⟩
    | some function =>
        cases function with
        | given callback => cases refused
        | receiveFromUntrustedHost =>
            change (if request.execution.started then _ else _) = _ at refused
            by_cases started : request.execution.started = true
            · rw [if_pos started] at refused
              cases refused
            · rw [if_neg started] at refused
              cases refused
              exact ⟨_, rfl⟩
  obtain ⟨throwable, rfl⟩ := threw
  refine ⟨?_, ?_⟩
  · intro response impossible
    cases impossible
  · intro function response impossible
    cases impossible

variable (exceptions env) in
theorem calls_exact (calls : CallTree Callback side) (scope : Option (HostCallback Callback)) :
    ∀ call ∈ (calls.routed (routing exceptions env) scope).2, Exact env call := by
  apply Behaviour.routed_all
  · intro side request scope result refused
    exact exact_refused request result refused
  · intro side request function answer
    exact exact_reached request function answer

variable (exceptions env) in
theorem execute_follows (calls : CallTree Callback side) :
    CalleeFollows env side (calls.execute (performCall exceptions env))
      (calls.routed (routing exceptions env)) := by
  apply Behaviour.execute_follows Back.refl Back.trans
  · intro side scope before after ready back
    exact ready.back back
  · intro side request callee expected follows
    exact performCall_follows follows request

variable (exceptions env) in
/-- Whatever the host and the enclave do on the thread: it answers, and its calls reach and return,
as on a stack of calls; each call leaves the states of both sides as it found them. -/
theorem calls_disciplined (calls : CallTree Callback .host) :
    (calls.execute (performCall exceptions env) (Thread.new Callback)).1 =
        (calls.routed (routing exceptions env) (some .receiveFromUntrustedHost)).1 ∧
      (calls.execute (performCall exceptions env) (Thread.new Callback)).2.calls =
        (calls.routed (routing exceptions env) (some .receiveFromUntrustedHost)).2 ∧
      (∀ exit ∈ (calls.execute (performCall exceptions env) (Thread.new Callback)).2.exits,
        exit.Restored ∧ Exact env exit.call) ∧
      (calls.execute (performCall exceptions env) (Thread.new Callback)).2.states =
        (Thread.new Callback).states := by
  obtain ⟨answered, called, back⟩ := execute_follows exceptions env calls
    (some .receiveFromUntrustedHost) (Thread.new Callback) (ready_new env)
  refine ⟨answered, called, ?_, back.states⟩
  intro exit isIn
  refine ⟨back.restored (List.forall_mem_nil _) exit isIn, ?_⟩
  apply calls_exact exceptions env calls (some .receiveFromUntrustedHost)
  rw [← List.nil_append (Prod.snd _)]
  exact called ▸ List.mem_map_of_mem isIn

end Enclave

end Conclave.Calls.User
