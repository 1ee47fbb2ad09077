import ConclaveFormal.Lib.LockedStacks
import ConclaveFormal.Lib.Transition
import Mathlib.Data.Fintype.Basic

/-!
# The commands callback

Host threads call into one enclave, and what it posts goes to the `commandsCallback` of the host:
with the sealed state, while the thread still has the lock of the enclave, or else at the end of the
outermost call, when the lock has long been released.
-/

set_option autoImplicit false

namespace Conclave.Host.CommandsCallback

open Conclave.Lib

structure EnclaveSettings where
  enablePersistentMap : Bool
  threadSafe : Bool
  deriving DecidableEq, Repr

namespace EnclaveSettings

/-- Without an enclave that has started the host makes no calls. -/
def refusesStart (settings : EnclaveSettings) : Bool :=
  settings.enablePersistentMap && settings.threadSafe

/-- Every receive ends with a sealed state. -/
def sendsSealedState (settings : EnclaveSettings) : Bool :=
  !settings.threadSafe && settings.enablePersistentMap

end EnclaveSettings

/-- What `callUntrustedHost` was given to receive the host's calls in. -/
inductive Callback where
  | receiveFromUntrustedHost
  | given
  | absent
  deriving DecidableEq, Repr

inductive ReceivePhase where
  | locking
  | preReceive
  | receiving
  | sealing
  | sealed
  | leaving (returned : Bool)
  deriving DecidableEq, Repr

/-- `callIntoEnclave` waits for the enclave, and is `unwinding` when the enclave has returned. -/
inductive Frame where
  | callIntoEnclave
  | unwinding
  | receive (phase : ReceivePhase)
  | callback
  | callUntrustedHost (withCallback : Bool)
  | commandsCallback
  deriving DecidableEq, Repr

section State

variable (Thread Place : Type)

/-- Mail for a place, which is a destination and a topic, with the number that the post office gave
it. -/
structure NumberedMail where
  place : Place
  sequenceNumber : Nat
  deriving DecidableEq, Repr

/-- `none` are bytes that no post office of a place has made. -/
inductive MailCommand where
  | postMail (mail : Option (NumberedMail Place))
  | storeSealedState
  deriving DecidableEq, Repr

/-- The last two fields are for the specification only: the mail of all places that the enclave has
posted, and what callbacks were invoked with, in that order. -/
structure State where
  lock : ReentrantLock Thread
  hasReceiveContext : Bool
  sequenceNumbers : Place → Nat
  mailCommands : Thread → List (MailCommand Place)
  calls : Thread → List Frame
  posted : List (NumberedMail Place)
  handedOver : List (NumberedMail Place)

def State.initial : State Thread Place where
  lock := none
  hasReceiveContext := false
  sequenceNumbers := fun _ => 0
  mailCommands := fun _ => []
  calls := fun _ => []
  posted := []
  handedOver := []

inductive Action where
  | deliverMail (decrypts : Bool)
  | callEnclave
  /-- The innermost activation goes on.  What it leaves to others succeeds or throws. -/
  | advance (succeeds : Bool)
  | encryptMail (place : Place)
  | postMail (mail : Option (NumberedMail Place))
  | callUntrustedHost (withCallback : Bool)
  /-- The code of the user, of the enclave or of the host, returns or throws. -/
  | finish (returned : Bool)
  deriving DecidableEq, Repr

end State

variable {Thread Place : Type}

def MailCommand.numbered : MailCommand Place → Option (NumberedMail Place)
  | postMail mail => mail
  | storeSealedState => none

/-! ## Stacks of activations, the innermost one first -/

def hostRuns : List Frame → Bool
  | [] | .callUntrustedHost _ :: _ | .commandsCallback :: _ => true
  | _ => false

def enclaveRuns : List Frame → Bool
  | .receive .receiving :: _ | .callback :: _ => true
  | _ => false

/-- The state of the thread's call in the enclave. -/
def receiveCallback : List Frame → Callback
  | [] => .receiveFromUntrustedHost
  | .callUntrustedHost withCallback :: _ => if withCallback then .given else .absent
  | _ :: rest => receiveCallback rest

/-- The state of the thread's call on the host is `Ready`. -/
def fullyUnwound (stack : List Frame) : Bool := !stack.contains .callIntoEnclave

/-- The enclave is done with the call. -/
def unwind (returned : Bool) : List Frame → List Frame
  | .callIntoEnclave :: rest => if returned then .unwinding :: rest else rest
  | stack => stack

variable [DecidableEq Thread]

namespace State

variable (settings : EnclaveSettings) (state : State Thread Place) (thread : Thread)

def acquire : State Thread Place := { state with lock := state.lock.acquire thread }

def release : State Thread Place := { state with lock := state.lock.release }

def setStack (stack : List Frame) : State Thread Place :=
  { state with calls := Function.update state.calls thread stack }

def mails : List (NumberedMail Place) := (state.mailCommands thread).filterMap MailCommand.numbered

def addMailCommand (command : MailCommand Place) : State Thread Place :=
  { state with
    mailCommands := Function.update state.mailCommands thread
      (state.mailCommands thread ++ [command]) }

def fireMailCommands : State Thread Place :=
  { state with
    mailCommands := Function.update state.mailCommands thread []
    handedOver := state.handedOver ++ state.mails thread }

def onMail (mail : Option (NumberedMail Place)) : State Thread Place :=
  { state.addMailCommand thread (.postMail mail) with posted := state.posted ++ mail.toList }

def onSealedState : State Thread Place :=
  (state.addMailCommand thread .storeSealedState).fireMailCommands thread

/-! ## How the innermost activation goes on

Each function gives the new stack with the new state. -/

section Steps

variable (rest : List Frame)

/-- Behind `preReceive`. -/
def startReceive : State Thread Place × List Frame :=
  if settings.threadSafe then (state.release, .receive .receiving :: rest)
  else if settings.enablePersistentMap then
    if state.hasReceiveContext then (state.release, unwind false rest)
    else ({ state with hasReceiveContext := true }, .receive .receiving :: rest)
  else (state, .receive .receiving :: rest)

def advanceReceive (succeeds : Bool) : ReceivePhase → Option (State Thread Place × List Frame)
  | .locking =>
      if state.lock.available thread then some (state.acquire thread, .receive .preReceive :: rest)
      else none
  | .preReceive =>
      if succeeds then some (state.startReceive settings rest)
      else some (state.release, unwind false rest)
  | .receiving => none
  | .sealing =>
      if succeeds then
        some (state.onSealedState thread, .commandsCallback :: .receive .sealed :: rest)
      else some (state.release, unwind false rest)
  | .sealed => some (state.release, unwind true rest)
  | .leaving returned =>
      if state.lock.available thread then some (state, unwind returned rest) else none

/-- The end of `callIntoEnclave`. -/
def endCall : State Thread Place × List Frame :=
  if fullyUnwound rest && !(state.mailCommands thread).isEmpty then
    (state.fireMailCommands thread, .commandsCallback :: rest)
  else (state, rest)

/-- With the check of the mail that was not posted. -/
def finishReceive (returned : Bool) : State Thread Place × List Frame :=
  if settings.threadSafe then (state, .receive (.leaving returned) :: rest)
  else if settings.enablePersistentMap then
    let cleared : State Thread Place := { state with hasReceiveContext := false }
    if returned then (cleared, .receive .sealing :: rest) else (cleared.release, unwind false rest)
  else (state.release, unwind returned rest)

/-- If it throws into the enclave, which is sending a sealed state, then the call of the enclave
throws as well. -/
def finishCommandsCallback (returned : Bool) : List Frame → State Thread Place × List Frame
  | .receive .sealed :: rest =>
      if returned then (state, .receive .sealed :: rest) else (state.release, unwind false rest)
  | rest => (state, rest)

end Steps

def advance (succeeds : Bool) : List Frame → Option (State Thread Place × List Frame)
  | .receive phase :: rest => state.advanceReceive settings thread rest succeeds phase
  | .unwinding :: rest => some (state.endCall thread rest)
  | _ => none

def finish (returned : Bool) : List Frame → Option (State Thread Place × List Frame)
  | .receive .receiving :: rest => some (state.finishReceive settings rest returned)
  | .callback :: rest => some (state, unwind returned rest)
  | .callUntrustedHost _ :: rest => some (state, rest)
  | .commandsCallback :: rest => some (state.finishCommandsCallback returned rest)
  | _ => none

/-- A call that throws at once leaves everything as it is. -/
def callEnclave (stack : List Frame) : List Frame :=
  match receiveCallback stack with
  | .receiveFromUntrustedHost => .receive .locking :: .callIntoEnclave :: stack
  | .given =>
      if settings.threadSafe || 0 < state.lock.heldBy thread then
        .callback :: .callIntoEnclave :: stack
      else stack
  | .absent => stack

end State

def deliverMail (decrypts : Bool) (stack : List Frame) : List Frame :=
  if decrypts then .receive .locking :: .callIntoEnclave :: stack else stack

def step [DecidableEq Place] (settings : EnclaveSettings) (state : State Thread Place) :
    Thread × Action Place → Option (State Thread Place)
  | (thread, .deliverMail decrypts) =>
      if hostRuns (state.calls thread) then
        if settings.refusesStart then some state
        else some (state.setStack thread (deliverMail decrypts (state.calls thread)))
      else none
  | (thread, .callEnclave) =>
      if hostRuns (state.calls thread) then
        if settings.refusesStart then some state
        else some (state.setStack thread (state.callEnclave settings thread (state.calls thread)))
      else none
  | (thread, .advance succeeds) =>
      (state.advance settings thread succeeds (state.calls thread)).map fun (next, stack) =>
        next.setStack thread stack
  | (thread, .encryptMail place) =>
      if enclaveRuns (state.calls thread) then
        some { state with
          sequenceNumbers :=
            Function.update state.sequenceNumbers place (state.sequenceNumbers place + 1) }
      else none
  | (thread, .postMail mail) =>
      if enclaveRuns (state.calls thread) ∧
          ∀ numbered ∈ mail, numbered.sequenceNumber < state.sequenceNumbers numbered.place then
        some (state.onMail thread mail)
      else none
  | (thread, .callUntrustedHost withCallback) =>
      if enclaveRuns (state.calls thread) then
        some (state.setStack thread (.callUntrustedHost withCallback :: state.calls thread))
      else none
  | (thread, .finish returned) =>
      (state.finish settings returned (state.calls thread)).map fun (next, stack) =>
        next.setStack thread stack

/-! ## The contract, and when it is kept -/

def InOrder (earlier later : NumberedMail Place) : Prop :=
  earlier.place = later.place → earlier.sequenceNumber ≤ later.sequenceNumber

/-- Invocations of the callback do not overlap, and the mail of each place reaches it in the order
of its numbers. -/
structure Serial (state : State Thread Place) : Prop where
  alone : ∀ first second, .commandsCallback ∈ state.calls first →
    .commandsCallback ∈ state.calls second → first = second
  once : ∀ thread, (state.calls thread).count .commandsCallback ≤ 1
  inOrder : state.handedOver.Pairwise InOrder

/-- The thread has commands that wait for the end of its call, or is in the callback. -/
def Outstanding (state : State Thread Place) (thread : Thread) : Prop :=
  state.mailCommands thread ≠ [] ∨ .commandsCallback ∈ state.calls thread

/-- The mail is the next one of its place, and none of it waits on another thread. -/
def Next (state : State Thread Place) (thread : Thread) (mail : NumberedMail Place) : Prop :=
  (∀ earlier ∈ state.posted, InOrder earlier mail) ∧
    ∀ other, other ≠ thread → ∀ waiting ∈ state.mails other, waiting.place ≠ mail.place

/-- Nothing is posted or sealed by a call from within the callback.  Mail is posted place by place
in the order of the numbers, and, if the enclave sends no sealed states, while no other thread has
anything outstanding. -/
def Separate (settings : EnclaveSettings) (state : State Thread Place) :
    Thread × Action Place → Prop
  | (thread, .postMail mail) =>
      .commandsCallback ∉ state.calls thread ∧
        (settings.sendsSealedState = false →
          ∀ other, other ≠ thread → ¬Outstanding state other) ∧
        ∀ numbered ∈ mail, Next state thread numbered
  | (thread, .advance _) =>
      (state.calls thread).head? = some (.receive .sealing) →
        .commandsCallback ∉ state.calls thread
  | _ => True

section Decide

variable [DecidableEq Place] [Fintype Thread] (settings : EnclaveSettings)
  (state : State Thread Place)

instance decidableOutstanding (thread : Thread) : Decidable (Outstanding state thread) :=
  inferInstanceAs (Decidable (_ ∨ _))

instance decidableNext (thread : Thread) (mail : NumberedMail Place) :
    Decidable (Next state thread mail) :=
  have (earlier later : NumberedMail Place) : Decidable (InOrder earlier later) :=
    inferInstanceAs (Decidable (_ → _))
  inferInstanceAs (Decidable (_ ∧ _))

instance decidableSeparate (input : Thread × Action Place) :
    Decidable (Separate settings state input) :=
  match input with
  | (_, .postMail _) => inferInstanceAs (Decidable (_ ∧ _ ∧ _))
  | (_, .advance _) => inferInstanceAs (Decidable (_ → _))
  | (_, .deliverMail _) | (_, .callEnclave) | (_, .encryptMail _) | (_, .callUntrustedHost _)
  | (_, .finish _) => isTrue trivial

end Decide

end Conclave.Host.CommandsCallback
