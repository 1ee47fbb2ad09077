import ConclaveFormal.Calls.CallInterface
import ConclaveFormal.Lib.Attempt

/-!
# Calls between user code

`callEnclave` and `callUntrustedHost` on one thread.  What the function of the other side returns
comes back in a message of its own, which leaves it in the state of the call; the call looks for
it there when its own message has been handled.
-/

set_option autoImplicit false

namespace Conclave.Calls.User

open Conclave.Lib Conclave.Common

section State

variable (Callback : Type)

/-- The functions that calls into the enclave are routed to. -/
inductive HostCallback where
  | receiveFromUntrustedHost
  | given (callback : Callback)

/-- The states of the host; objects are numbered. -/
inductive HostCallState where
  | ready
  | intoEnclave (object : Nat) (callback : Option Callback)
  | response (bytes : Bytes)

inductive EnclaveCallState where
  | receive (object : Nat) (callback : Option (HostCallback Callback))
  | response (bytes : Bytes)

/-- What an entry of `enclaveCalls` and one of `threadIDToTransaction` hold. -/
structure CallStates where
  host : HostCallState Callback
  enclave : EnclaveCallState Callback

/-- `execution` is what a call finds in the enclave if `receiveFromUntrustedHost` gets it:
whether it has been closed, the mail that is left unposted at the end, and what sealing the
state throws, or the commands callback that gets it. -/
structure Execution where
  started : Bool
  pendingPostMails : Int
  sealing : Option Throwable

/-- The arguments of `callEnclave` or `callUntrustedHost`. -/
structure Request (side : Side) where
  bytes : Bytes
  callback : Option Callback
  execution : Execution

abbrev RoutedCall : Type := Behaviour.Routed (Request Callback) Answer (HostCallback Callback)

/-- For the specification only: a call that has ended, with the states before and after it. -/
structure Exit where
  call : RoutedCall Callback
  before : CallStates Callback
  after : CallStates Callback

/-- A thread has its entries from the start.  The last two fields are for the specification
only: the function that a call has reached, and the ends of all calls. -/
structure Thread where
  states : CallStates Callback
  currentEnclaveCall : Bool
  lockHolds : Nat
  numberReceiveCallsExecuting : Nat
  hasReceiveContext : Bool
  objects : Nat
  reached : Option (HostCallback Callback × Answer)
  exits : List (Exit Callback)

def Thread.new : Thread Callback where
  states := ⟨.ready, .receive 0 (some .receiveFromUntrustedHost)⟩
  currentEnclaveCall := false
  lockHolds := 0
  numberReceiveCallsExecuting := 0
  hasReceiveContext := false
  objects := 1
  reached := none
  exits := []

abbrev Method (α : Type) : Type := Attempt (Thread Callback) Throwable α

end State

structure EnclaveEnvironment where
  threadSafe : Bool
  enablePersistentMap : Bool
  deriving DecidableEq, Repr

inductive ThrowableKind where
  | enclaveException
  | runtimeException
  | error
  | mailDecryptionException
  | other
  deriving DecidableEq, Repr

/-- The exceptions of the checks, what the transport makes of an exception that `side` gets from
the other one, and the exceptions that wrap others. -/
structure Exceptions where
  illegalState : String → Throwable
  illegalArgument : String → Throwable
  received : Side → Throwable → Throwable
  kind : Throwable → ThrowableKind
  enclaveException : Throwable → Throwable
  runtimeException : Throwable → Throwable

variable {Callback : Type}

namespace HostCallState

def className : HostCallState Callback → String
  | ready => "Ready"
  | intoEnclave _ _ => "IntoEnclave"
  | response _ => "Response"

def isResponse : HostCallState Callback → Bool
  | response _ => true
  | _ => false

def isObject (number : Nat) : HostCallState Callback → Bool
  | intoEnclave object _ => object = number
  | _ => false

end HostCallState

namespace EnclaveCallState

def className : EnclaveCallState Callback → String
  | receive _ _ => "Receive"
  | response _ => "Response"

def isObject (number : Nat) : EnclaveCallState Callback → Bool
  | receive object _ => object = number
  | response _ => false

end EnclaveCallState

namespace Thread

def setHost (state : HostCallState Callback) (thread : Thread Callback) : Thread Callback :=
  { thread with states := { thread.states with host := state } }

def setEnclave (state : EnclaveCallState Callback) (thread : Thread Callback) : Thread Callback :=
  { thread with states := { thread.states with enclave := state } }

end Thread

section Handlers

variable (exceptions : Exceptions)

def checkState (condition : Bool) (message : String) : Method Callback Unit :=
  if condition then pure () else Attempt.throw (exceptions.illegalState message)

/-- What `checkStateIs` says. -/
def unexpected (expected actual : String) : String :=
  "Expected state to be " ++ expected ++ " but is " ++ actual ++ " instead."

def wrongState {α : Type} (expected actual : String) : Method Callback α :=
  Attempt.throw (exceptions.illegalState (unexpected expected actual))

def newObject : Method Callback Nat := fun thread =>
  (.ok thread.objects, { thread with objects := thread.objects + 1 })

/-- A message that `side` sends.  The other side's handler throws through the transport. -/
def send (side : Side) (handler : Method Callback Unit) : Method Callback Unit :=
  Attempt.handle handler fun throwable => Attempt.throw (exceptions.received side throwable)

/-- The function runs, and what it does is noted. -/
def apply (function : HostCallback Callback) (callee : Thread Callback → Answer × Thread Callback) :
    Method Callback (Option Bytes) := fun thread =>
  let (answer, thread) := callee thread
  (answer, { thread with reached := some (function, answer) })

/-! ## Messages to the host -/

namespace EnclaveHost

/-- `onMessage` is what is done for the type of the message. -/
def handleCall (onMessage : Option Callback → Method Callback Unit) : Method Callback Unit := do
  let thread ← Attempt.get
  match thread.states.host with
  | .intoEnclave _ callback => onMessage callback
  | state => wrongState exceptions "IntoEnclave" state.className

def onCallReturn (bytes : Bytes) : Method Callback Unit :=
  Attempt.modify (Thread.setHost (.response bytes))

end EnclaveHost

/-! ## Messages to the enclave -/

namespace Enclave

/-- `onMessage` is what is done for the type of the message. -/
def handleCall (onMessage : Method Callback Unit) : Method Callback Unit := do
  Attempt.modify fun thread => { thread with currentEnclaveCall := true }
  onMessage

def onCallReturn (bytes : Bytes) : Method Callback Unit :=
  Attempt.modify (Thread.setEnclave (.response bytes))

def sendCallReturn : Option Bytes → Method Callback Unit
  | some response =>
      send exceptions .enclave
        (EnclaveHost.handleCall exceptions fun _ => EnclaveHost.onCallReturn response)
  | none => pure ()

def withLock {α : Type} (body : Method Callback α) : Method Callback α := do
  Attempt.modify fun thread => { thread with lockHolds := thread.lockHolds + 1 }
  Attempt.ensuring body
    (Attempt.modify fun thread => { thread with lockHolds := thread.lockHolds - 1 })

def checkStarted (execution : Execution) : Method Callback Unit :=
  if execution.started then pure () else wrongState exceptions "Started" "Closed"

/-- What `executeReceive` says about mail that is left. -/
def notPosted (pendingPostMails : Int) : String :=
  "There were " ++ toString pendingPostMails ++
    " mail(s) created which were not posted with postMail."

def sendSealedState (execution : Execution) : Method Callback Unit :=
  match execution.sealing with
  | some throwable => Attempt.throw throwable
  | none => pure ()

/-- The overload with a `ReceiveContext`. -/
def executeReceiveIn (execution : Execution) (receiveMethod : Method Callback (Option Bytes)) :
    Method Callback (Option Bytes) := do
  let thread ← Attempt.get
  checkState exceptions (!thread.hasReceiveContext)
    ("deliverMail cannot be called in a callback to another deliverMail when the persistent map " ++
      "is enabled.")
  Attempt.modify fun thread => { thread with hasReceiveContext := true }
  let response ← Attempt.ensuring receiveMethod
    (Attempt.modify fun thread => { thread with hasReceiveContext := false })
  checkState exceptions (execution.pendingPostMails = 0) (notPosted execution.pendingPostMails)
  return response

def executeReceive (env : EnclaveEnvironment) (execution : Execution)
    (receiveMethod : Method Callback (Option Bytes)) : Method Callback (Option Bytes) :=
  if env.threadSafe then do
    withLock do
      checkStarted exceptions execution
      Attempt.modify fun thread =>
        { thread with numberReceiveCallsExecuting := thread.numberReceiveCallsExecuting + 1 }
    Attempt.ensuring receiveMethod
      (withLock (Attempt.modify fun thread =>
        { thread with numberReceiveCallsExecuting := thread.numberReceiveCallsExecuting - 1 }))
  else
    withLock do
      checkStarted exceptions execution
      if env.enablePersistentMap then do
        let response ← executeReceiveIn exceptions execution receiveMethod
        sendSealedState execution
        return response
      else receiveMethod

def route (env : EnclaveEnvironment) (execution : Execution)
    (callee : Thread Callback → Answer × Thread Callback) (callback : HostCallback Callback) :
    Method Callback (Option Bytes) := do
  match callback with
  | .receiveFromUntrustedHost => executeReceive exceptions env execution (apply callback callee)
  | .given _ => do
      let thread ← Attempt.get
      checkState exceptions (env.threadSafe || 0 < thread.lockHolds) "Check failed."
      apply callback callee

def noCallback : String :=
  "The enclave has not provided a callback to callUntrustedHost to receive the host's call back in."

/-- `checkStateIs<Receive>()`, with its callback. -/
def checkStateIsReceive : Method Callback (Option (HostCallback Callback)) := do
  let thread ← Attempt.get
  match thread.states.enclave with
  | .receive _ callback => return callback
  | state => wrongState exceptions "Receive" state.className

def transitionStateFromReceive (state : EnclaveCallState Callback) :
    Method Callback (EnclaveCallState Callback) := do
  let thread ← Attempt.get
  let _ ← checkStateIsReceive exceptions
  Attempt.modify (Thread.setEnclave state)
  return thread.states.enclave

def onUntrustedHost (env : EnclaveEnvironment) (execution : Execution)
    (callee : Thread Callback → Answer × Thread Callback) : Method Callback Unit := do
  let callback ← checkStateIsReceive exceptions
  match callback with
  | none => Attempt.throw (exceptions.illegalState noCallback)
  | some callback => do
      let response ← route exceptions env execution callee callback
      sendCallReturn exceptions response

end Enclave

namespace EnclaveHost

def sendCallReturn : Option Bytes → Method Callback Unit
  | some response => send exceptions .host (Enclave.handleCall (Enclave.onCallReturn response))
  | none => pure ()

def noCallback : String :=
  "Enclave responded via callUntrustedHost but a callback was not provided to callEnclave."

def onUntrustedHost (callee : Thread Callback → Answer × Thread Callback) :
    Option Callback → Method Callback Unit
  | none => Attempt.throw (exceptions.illegalArgument noCallback)
  | some callback => do
      let response ← apply (.given callback) callee
      sendCallReturn exceptions response

/-! ## Calls from the host -/

/-- What `callIntoEnclave` throws for an exception of its body. -/
def rethrown (throwable : Throwable) : Throwable :=
  match exceptions.kind throwable with
  | .other => exceptions.enclaveException throwable
  | _ => throwable

/-- The `finally` block of `callIntoEnclave`; the object is its `intoEnclaveState`. -/
def revertState (intoEnclaveState : Nat) (previousCallState : HostCallState Callback) :
    Method Callback (Option Bytes) := do
  let thread ← Attempt.get
  if thread.states.host.isObject intoEnclaveState then do
    Attempt.modify (Thread.setHost previousCallState)
    return none
  else
    match thread.states.host with
    | .response bytes => do
        Attempt.modify (Thread.setHost previousCallState)
        return some bytes
    | state => wrongState exceptions "Response" state.className

/-- No mail is posted, so that there are no commands to be fired at the end. -/
def callIntoEnclave (callback : Option Callback) (body : Method Callback Unit) :
    Method Callback (Option Bytes) := do
  let intoEnclaveState ← newObject
  let thread ← Attempt.get
  Attempt.modify (Thread.setHost (.intoEnclave intoEnclaveState callback))
  checkState exceptions (!thread.states.host.isResponse) "Check failed."
  let (_, response) ← Attempt.tryFinally
    (Attempt.handle body fun throwable => Attempt.throw (rethrown exceptions throwable))
    (revertState exceptions intoEnclaveState thread.states.host)
  return response

def callEnclave (env : EnclaveEnvironment) (request : Request Callback .host)
    (callee : Thread Callback → Answer × Thread Callback) : Method Callback (Option Bytes) :=
  Attempt.handle
    (callIntoEnclave exceptions request.callback
      (send exceptions .host
        (Enclave.handleCall (Enclave.onUntrustedHost exceptions env request.execution callee))))
    fun throwable =>
      if exceptions.kind throwable = .mailDecryptionException then
        Attempt.throw (exceptions.runtimeException throwable)
      else Attempt.throw throwable

end EnclaveHost

/-! ## Calls from the enclave -/

namespace Enclave

/-- The `finally` block of `callUntrustedHost`. -/
def revertState (newReceiveState : Nat) (previousReceiveState : EnclaveCallState Callback) :
    Method Callback (Option Bytes) := do
  let thread ← Attempt.get
  if thread.states.enclave.isObject newReceiveState then do
    Attempt.modify (Thread.setEnclave previousReceiveState)
    return none
  else
    match thread.states.enclave with
    | .response bytes => do
        Attempt.modify (Thread.setEnclave previousReceiveState)
        return some bytes
    | state => wrongState exceptions "Response" state.className

def callUntrustedHost (request : Request Callback .enclave)
    (callee : Thread Callback → Answer × Thread Callback) : Method Callback (Option Bytes) := do
  let thread ← Attempt.get
  checkState exceptions thread.currentEnclaveCall
    "May not attempt to call out to the host outside the context of a call."
  let newReceiveState ← newObject
  let previousReceiveState ← transitionStateFromReceive exceptions
    (.receive newReceiveState (request.callback.map .given))
  let (_, response) ← Attempt.tryFinally
    (send exceptions .enclave
      (EnclaveHost.handleCall exceptions (EnclaveHost.onUntrustedHost exceptions callee)))
    (revertState exceptions newReceiveState previousReceiveState)
  return response

end Enclave

/-! ## Trees of calls -/

/-- The call of the side, which runs the function of the other side. -/
def outgoingCall (env : EnclaveEnvironment) {side : Side} (request : Request Callback side)
    (callee : Thread Callback → Answer × Thread Callback) : Method Callback (Option Bytes) :=
  match side, request with
  | .host, request => EnclaveHost.callEnclave exceptions env request callee
  | .enclave, request => Enclave.callUntrustedHost exceptions request callee

/-- A call, noted at its end. -/
def performCall (env : EnclaveEnvironment) {side : Side} (request : Request Callback side)
    (callee : Thread Callback → Answer × Thread Callback) (thread : Thread Callback) :
    Answer × Thread Callback :=
  let (result, after) :=
    outgoingCall exceptions env request callee { thread with reached := none }
  (result, { after with
    exits := after.exits ++
      [⟨⟨side, request, after.reached, result⟩, thread.states, after.states⟩] })

end Handlers

/-- What the user code of one thread does on both sides: calls in functions that are called. -/
abbrev CallTree (Callback : Type) (side : Side) : Type :=
  Behaviour Side.other (Request Callback) Answer side

/-! ## What calls should come to -/

section Specification

variable (exceptions : Exceptions)

/-- What the caller gets of an exception behind the message of its call. -/
def thrown : Side → Throwable → Throwable
  | .host, throwable =>
      let throwable := EnclaveHost.rethrown exceptions (exceptions.received .host throwable)
      if exceptions.kind throwable = .mailDecryptionException then
        exceptions.runtimeException throwable
      else throwable
  | .enclave, throwable => exceptions.received .enclave throwable

/-- How `executeReceive` ends if the function answers so. -/
def executed (env : EnclaveEnvironment) (execution : Execution) : Answer → Answer
  | .error throwable => .error throwable
  | .ok response =>
      if env.threadSafe || !env.enablePersistentMap then .ok response
      else if execution.pendingPostMails = 0 then
        match execution.sealing with
        | some throwable => .error throwable
        | none => .ok response
      else .error (exceptions.illegalState (Enclave.notPosted execution.pendingPostMails))

def answered (env : EnclaveEnvironment) (execution : Execution) (answer : Answer) :
    HostCallback Callback → Answer
  | .receiveFromUntrustedHost => executed exceptions env execution answer
  | .given _ => answer

/-- The exception of a call for which the other side has supplied no callback. -/
def unsupplied : Side → Throwable
  | .host => exceptions.illegalState Enclave.noCallback
  | .enclave => exceptions.illegalArgument EnclaveHost.noCallback

/-- The scope of a call is what the innermost call of the other side around it has supplied;
outside of all calls it is `receiveFromUntrustedHost`. -/
def routing (env : EnclaveEnvironment) :
    Behaviour.Routing (Request Callback) Answer (Option (HostCallback Callback))
      (HostCallback Callback) where
  route {side} request scope :=
    match scope with
    | none => .error (.error (thrown exceptions side (unsupplied exceptions side)))
    | some .receiveFromUntrustedHost =>
        if request.execution.started then .ok .receiveFromUntrustedHost
        else
          .error (.error (thrown exceptions side
            (exceptions.illegalState (unexpected "Started" "Closed"))))
    | some (.given callback) => .ok (.given callback)
  inside request := request.callback.map .given
  receive {side} request function answer :=
    (answered exceptions env request.execution answer function).mapError (thrown exceptions side)

end Specification

end Conclave.Calls.User
