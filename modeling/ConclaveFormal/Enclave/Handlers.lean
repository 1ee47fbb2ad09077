import ConclaveFormal.Enclave.MailOrdering
import ConclaveFormal.Enclave.SealedBlob
import ConclaveFormal.Lib.LockedStacks

/-!
# The call handlers of an enclave

How host threads start an enclave, call into it and stop it.  A step is what one thread does until
the next access of the state that the threads share, so the calls interleave anywhere the lock lets
them; a thread whose activation has called out to the host may come in again on the same stack.
-/

set_option autoImplicit false

namespace Conclave.Enclave.Handlers

open Conclave.Lib Conclave.Lib.BufferReader Conclave.Enclave

inductive EnclaveMode where
  | RELEASE
  | DEBUG
  | SIMULATION
  | MOCK
  deriving DecidableEq, Repr

/-- The enclave's own `threadSafe` and the `env` it runs in. -/
structure EnclaveEnvironment extends SealingEnvironment where
  threadSafe : Bool
  enclaveMode : EnclaveMode
  hasPersistenceKeySpec : Bool
  localSecretKey : Bytes
  inMemoryFileSystemSize : Int
  persistentFileSystemSize : Int
  cipher : AesGcm

inductive StartException where
  | notAvailableInMultiThreaded
  | illegalState
  | parameterBuffer (error : BufferError)
  | noKds
  | applySealedState (error : ApplyError)
  | setupFileSystems
  | onStartup
  deriving DecidableEq, Repr

/-- What `callUntrustedHost` was given to receive the host's calls in. -/
inductive Callback where
  | receiveFromUntrustedHost
  | given
  | absent
  deriving DecidableEq, Repr

inductive CallState where
  | receive (callback : Callback)
  | response
  deriving DecidableEq, Repr

/-! ## Activations -/

inductive StartPhase where
  | locking (parameterBuffer : Bytes)
  | transitioning (parameterBuffer : Bytes)
  | reading (parameterBuffer : Bytes)
  | initialisingKey (sealedStateBlob : Option Bytes)
  | applying (sealedStateBlob : Option Bytes)
  | settingUp
  | onStartup
  deriving DecidableEq, Repr

/-- `awaiting` remembers how often the thread held the lock. -/
inductive StopPhase where
  | locking
  | transitioning
  | quiescing
  | awaiting (holds : Nat)
  | onShutdown
  deriving DecidableEq, Repr

inductive ReceivePhase where
  | locking
  | checkingState
  | preReceive
  | starting
  | calling
  | receiving
  | sealing
  | leaving
  deriving DecidableEq, Repr

/-- `afterFailure` is for the proofs only: whether a start had failed when the call came in. -/
inductive Frame where
  | start (phase : StartPhase)
  | stop (phase : StopPhase)
  | receive (afterFailure : Bool) (phase : ReceivePhase)
  | callback
  | callUntrustedHost (previousReceiveState : Callback)
  deriving DecidableEq, Repr

/-- The enclave's developer wrote what runs here. -/
def Frame.userCode : Frame → Bool
  | .start .onStartup | .stop .onShutdown | .receive _ .receiving | .callback => true
  | _ => false

/-- The thread is out in the host, for a call of the user's code or with a sealed state. -/
def Frame.inHost : Frame → Bool
  | .callUntrustedHost _ | .receive _ .sealing => true
  | _ => false

section State

variable (Thread : Type)

/-- A thread has an entry in `enclaveCalls` from its first message on.  `startExceptions` and
`onShutdownInvoked` are for the proofs only. -/
structure State where
  enclaveState : EnclaveState
  lock : ReentrantLock Thread
  numberReceiveCallsExecuting : Nat
  hasReceiveContext : Bool
  aesPersistenceKey : Option Bytes
  hasKdsEii : Bool
  persistent : PersistentState
  enclaveCalls : Thread → Option CallState
  calls : Thread → List Frame
  startExceptions : List StartException
  onShutdownInvoked : Bool

def State.initial : State Thread where
  enclaveState := .new
  lock := none
  numberReceiveCallsExecuting := 0
  hasReceiveContext := false
  aesPersistenceKey := none
  hasKdsEii := false
  persistent := .empty
  enclaveCalls := fun _ => none
  calls := fun _ => []
  startExceptions := []
  onShutdownInvoked := false

end State

inductive Action where
  | start (parameterBuffer : Bytes)
  | stop
  /-- `none` does not parse; `some none` holds no private key for the expected specification. -/
  | setKdsPersistenceKey (response : Option (Option Bytes))
  | mail (decrypts : Bool)
  | untrustedHost
  | callReturn
  /-- The innermost activation goes on.  What it leaves to others succeeds or throws. -/
  | advance (succeeds : Bool)
  /-- The user's code calls out to the host. -/
  | callUntrustedHost (withCallback : Bool)
  /-- The user's code, or the call out to the host, returns or throws. -/
  | finish (returned : Bool)
  deriving DecidableEq, Repr

variable {Thread : Type} [DecidableEq Thread]

namespace EnclaveEnvironment

variable (env : EnclaveEnvironment)

def kdsRequired : Bool := env.hasPersistenceKeySpec && env.enclaveMode = .RELEASE

def initialiseLocalPersistenceKeyIfNecessary (aesPersistenceKey : Option Bytes) :
    Except StartException Bytes :=
  match aesPersistenceKey with
  | some key => .ok key
  | none => if env.kdsRequired then .error .noKds else .ok env.localSecretKey

/-- The in-memory file system is mounted at the first place, the persistent one at the second. -/
def mountPoints : Option (String × String) :=
  let inMemorySize := env.inMemoryFileSystemSize
  let persistentSize := env.persistentFileSystemSize
  if inMemorySize > 0 ∧ persistentSize = 0 ∨ inMemorySize = 0 ∧ persistentSize > 0 then
    some ("/", "/")
  else if inMemorySize > 0 ∧ persistentSize > 0 then some ("/tmp/", "/")
  else none

def setupFileSystems (succeeds : Bool) : Bool := env.mountPoints.isNone || succeeds

def applySealedState (aesPersistenceKey : Option Bytes) (state : PersistentState) :
    Option Bytes → Except ApplyError Unit × PersistentState
  | none => (.ok (), state)
  | some sealedStateBlob =>
      applySealedBlob env.cipher env.toSealingEnvironment (aesPersistenceKey.getD []) state
        sealedStateBlob

/-- Multi-threaded enclaves with a persistent map are refused before anything else. -/
def refusesStart : Bool := env.enablePersistentMap && env.threadSafe

end EnclaveEnvironment

/-- `parameterBuffer.getNullable { this }`. -/
def readSealedStateBlob : BufferReader (Option Bytes) := do
  let isNull ← getBoolean
  if isNull then return none else fun remaining => .ok (some remaining, remaining)

namespace State

variable (state : State Thread) (thread : Thread)

def acquire : State Thread := { state with lock := state.lock.acquire thread }

def release : State Thread := { state with lock := state.lock.release }

def setStack (stack : List Frame) : State Thread :=
  { state with calls := Function.update state.calls thread stack }

def throwStart (e : StartException) : State Thread :=
  { state with startExceptions := state.startExceptions ++ [e] }

/-- A start has thrown that was not refused because the enclave is started already. -/
def startFailed : Bool := state.startExceptions.any (· != .illegalState)

def canEnter : Bool :=
  match state.calls thread with
  | [] => true
  | frame :: _ => frame.inHost

def push (frame : Frame) : State Thread := state.setStack thread (frame :: state.calls thread)

/-- `currentEnclaveCall.set` and `enclaveCalls.computeIfAbsent`. -/
def receiveMessage : State Thread :=
  { state with
    enclaveCalls := Function.update state.enclaveCalls thread
      (some ((state.enclaveCalls thread).getD (.receive .receiveFromUntrustedHost))) }

def setCallState (callState : CallState) : State Thread :=
  { state with enclaveCalls := Function.update state.enclaveCalls thread (some callState) }

@[simp] theorem enclaveCalls_receiveMessage :
    (state.receiveMessage thread).enclaveCalls = Function.update state.enclaveCalls thread
      (some ((state.enclaveCalls thread).getD (.receive .receiveFromUntrustedHost))) := rfl

@[simp] theorem enclaveCalls_setCallState (callState : CallState) :
    (state.setCallState thread callState).enclaveCalls =
      Function.update state.enclaveCalls thread (some callState) := rfl

@[simp] theorem calls_setStack (stack : List Frame) :
    (state.setStack thread stack).calls = Function.update state.calls thread stack := rfl

/-! ## How an activation goes on

Each function gives the frames that take the place of the activation. -/

section Advance

variable (env : EnclaveEnvironment) (succeeds : Bool)

def advanceStart : StartPhase → Option (State Thread × List Frame)
  | .locking parameterBuffer =>
      if state.lock.available thread then
        some (state.acquire thread, [.start (.transitioning parameterBuffer)])
      else none
  | .transitioning parameterBuffer =>
      if state.enclaveState = .new then
        some ({ state with enclaveState := .started }, [.start (.reading parameterBuffer)])
      else some ((state.throwStart .illegalState).release, [])
  | .reading parameterBuffer =>
      match readSealedStateBlob parameterBuffer with
      | .error e => some ((state.throwStart (.parameterBuffer e)).release, [])
      | .ok (sealedStateBlob, _) => some (state, [.start (.initialisingKey sealedStateBlob)])
  | .initialisingKey sealedStateBlob =>
      match env.initialiseLocalPersistenceKeyIfNecessary state.aesPersistenceKey with
      | .error e => some ((state.throwStart e).release, [])
      | .ok key =>
          some ({ state with aesPersistenceKey := some key }, [.start (.applying sealedStateBlob)])
  | .applying sealedStateBlob =>
      match env.applySealedState state.aesPersistenceKey state.persistent sealedStateBlob with
      | (.error e, persistent) =>
          some ((({ state with persistent } : State Thread).throwStart
            (.applySealedState e)).release, [])
      | (.ok (), persistent) => some ({ state with persistent }, [.start .settingUp])
  | .settingUp =>
      if env.setupFileSystems succeeds then some (state, [.start .onStartup])
      else some ((state.throwStart .setupFileSystems).release, [])
  | .onStartup => none

/-- A thread that awaits the condition may wake up at any time. -/
def advanceStop : StopPhase → Option (State Thread × List Frame)
  | .locking =>
      if state.lock.available thread then some (state.acquire thread, [.stop .transitioning])
      else none
  | .transitioning =>
      if state.enclaveState = .started then
        some ({ state with enclaveState := .closed }, [.stop .quiescing])
      else some (state.release, [])
  | .quiescing =>
      if state.numberReceiveCallsExecuting > 0 then
        some ({ state with lock := state.lock.releaseAll },
          [.stop (.awaiting (state.lock.heldBy thread))])
      else some ({ state with onShutdownInvoked := true }, [.stop .onShutdown])
  | .awaiting holds =>
      if state.lock.available thread then
        some ({ state with lock := state.lock.acquireTimes thread holds }, [.stop .quiescing])
      else none
  | .onShutdown => none

/-- Behind `preReceive`: a thread-safe enclave counts the call and unlocks, one with a persistent
map sets the receive context or refuses to nest. -/
def startReceive (afterFailure : Bool) : State Thread × List Frame :=
  let calling := [Frame.receive afterFailure .calling]
  if env.threadSafe then
    (({ state with numberReceiveCallsExecuting := state.numberReceiveCallsExecuting + 1 }
      : State Thread).release, calling)
  else if env.enablePersistentMap then
    if state.hasReceiveContext then (state.release, [])
    else ({ state with hasReceiveContext := true }, calling)
  else (state, calling)

def advanceReceive (afterFailure : Bool) : ReceivePhase → Option (State Thread × List Frame)
  | .locking =>
      if state.lock.available thread then
        some (state.acquire thread, [.receive afterFailure .checkingState])
      else none
  | .checkingState =>
      if state.enclaveState = .started then some (state, [.receive afterFailure .preReceive])
      else some (state.release, [])
  | .preReceive =>
      if succeeds then some (state, [.receive afterFailure .starting])
      else some (state.release, [])
  | .starting => some (state.startReceive env afterFailure)
  | .calling => some (state, [.receive afterFailure .receiving])
  | .receiving => none
  | .sealing => some (state.release, [])
  | .leaving =>
      if state.lock.available thread then
        some ({ state with
          numberReceiveCallsExecuting := state.numberReceiveCallsExecuting - 1 }, [])
      else none

def advance : Frame → Option (State Thread × List Frame)
  | .start phase => state.advanceStart thread env succeeds phase
  | .stop phase => state.advanceStop thread phase
  | .receive afterFailure phase => state.advanceReceive thread env succeeds afterFailure phase
  | .callback => none
  | .callUntrustedHost _ => none

end Advance

section Finish

variable (env : EnclaveEnvironment) (returned : Bool)

/-- The receive method is over, with the check of the mail that was not posted. -/
def finishReceive (afterFailure : Bool) : State Thread × List Frame :=
  if env.threadSafe then (state, [.receive afterFailure .leaving])
  else if env.enablePersistentMap then
    let cleared : State Thread := { state with hasReceiveContext := false }
    if returned then (cleared, [.receive afterFailure .sealing]) else (cleared.release, [])
  else (state.release, [])

/-- The state of the call is what it was before `callUntrustedHost`, whatever the host has done. -/
def finish : Frame → Option (State Thread × List Frame)
  | .start .onStartup =>
      if returned then some (state.release, [])
      else some ((state.throwStart .onStartup).release, [])
  | .stop .onShutdown => some (state.release, [])
  | .receive afterFailure .receiving => some (state.finishReceive env returned afterFailure)
  | .callback => some (state, [])
  | .callUntrustedHost previous => some (state.setCallState thread (.receive previous), [])
  | _ => none

end Finish

/-! ## Calls from the host -/

section Calls

variable (env : EnclaveEnvironment)

def handleStart (parameterBuffer : Bytes) : State Thread :=
  if env.refusesStart then state.throwStart .notAvailableInMultiThreaded
  else state.push thread (.start (.locking parameterBuffer))

/-- `copyOf(16)`. -/
def first128Bits (key : Bytes) : Bytes := (key ++ List.replicate 16 0).take 16

def handleSetKdsPersistenceKey (response : Option (Option Bytes)) : State Thread :=
  if state.hasKdsEii || !env.kdsConfigured then state
  else
    match response with
    | none => state
    | some none => { state with hasKdsEii := true }
    | some (some key) =>
        { state with hasKdsEii := true, aesPersistenceKey := some (first128Bits key) }

def onMail (decrypts : Bool) : State Thread :=
  if decrypts then state.push thread (.receive state.startFailed .locking) else state

def onUntrustedHost : State Thread :=
  match state.enclaveCalls thread with
  | some (.receive .receiveFromUntrustedHost) =>
      state.push thread (.receive state.startFailed .locking)
  | some (.receive .given) =>
      if env.threadSafe || 0 < state.lock.heldBy thread then state.push thread .callback else state
  | _ => state

/-- The user's code calls out; the exception for a thread without a call, or for one whose call has
a response, is the user's. -/
def callOut (withCallback : Bool) : State Thread :=
  match state.enclaveCalls thread with
  | some (.receive previous) =>
      (state.setCallState thread (.receive (if withCallback then .given else .absent))).push thread
        (.callUntrustedHost previous)
  | _ => state

end Calls

end State

def step (env : EnclaveEnvironment) (state : State Thread) : Thread × Action → Option (State Thread)
  | (thread, .start parameterBuffer) =>
      if state.canEnter thread then some (state.handleStart thread env parameterBuffer) else none
  | (thread, .stop) =>
      if state.canEnter thread then some (state.push thread (.stop .locking)) else none
  | (thread, .setKdsPersistenceKey response) =>
      if state.canEnter thread then some (state.handleSetKdsPersistenceKey env response) else none
  | (thread, .mail decrypts) =>
      if state.canEnter thread then some ((state.receiveMessage thread).onMail thread decrypts)
      else none
  | (thread, .untrustedHost) =>
      if state.canEnter thread then some ((state.receiveMessage thread).onUntrustedHost thread env)
      else none
  | (thread, .callReturn) =>
      match state.calls thread with
      | .callUntrustedHost _ :: _ => some (state.setCallState thread .response)
      | _ => none
  | (thread, .advance succeeds) =>
      match state.calls thread with
      | [] => none
      | frame :: rest =>
          (state.advance thread env succeeds frame).map fun (next, frames) =>
            next.setStack thread (frames ++ rest)
  | (thread, .callUntrustedHost withCallback) =>
      match state.calls thread with
      | [] => none
      | frame :: _ => if frame.userCode then some (state.callOut thread withCallback) else none
  | (thread, .finish returned) =>
      match state.calls thread with
      | [] => none
      | frame :: rest =>
          (state.finish thread env returned frame).map fun (next, frames) =>
            next.setStack thread (frames ++ rest)

end Conclave.Enclave.Handlers
