import ConclaveFormal.Lib.ReentrantLock
import ConclaveFormal.Lib.Transition
import ConclaveFormal.Mail.DecryptingStream

/-!
# The order of delivered mail

Any number of host threads deliver mail to one enclave instance.  Every delivery
runs `executeReceive`: the ordering check under the lock, then `receiveMail`,
which a thread-safe enclave runs outside of it.  A step is one access to the
shared state by one thread, so the threads interleave anywhere the lock lets
them; a receive that calls out to the host may be interrupted by a nested
delivery on the same thread.
-/

set_option autoImplicit false

namespace Conclave.Enclave

open Conclave.Lib Conclave.Mail

abbrev PublicKeyAndTopic (N : Noise) : Type := N.PublicKey × JString

inductive EnclaveState where
  | new
  | started
  | closed
  deriving DecidableEq, Repr

structure Config where
  threadSafe : Bool
  enablePersistentMap : Bool
  deriving DecidableEq, Repr

/-- The entry point a call came in through. -/
inductive Purpose (N : Noise) where
  | mail (mail : DecryptedEnclaveMail N)
  | untrustedHost

/-- Where a thread is inside `executeReceive`. -/
inductive Phase where
  | entering
  | checkingState
  | lookingUp
  | comparing
  | incrementing
  | starting
  | calling
  | receiving
  | sealing
  | leaving
  deriving DecidableEq, Repr

/-- One activation of `executeReceive`.  `ticket` is for the proofs only: which
pass of its sender and topic the mail's ordering check was. -/
structure Frame (N : Noise) where
  purpose : Purpose N
  phase : Phase
  ticket : Nat

inductive Event (N : Noise) where
  | passed (mail : DecryptedEnclaveMail N)
  | received (mail : DecryptedEnclaveMail N) (ticket : Nat)

section Model

variable (N : Noise) (Thread : Type)

structure State where
  lock : ReentrantLock Thread
  enclaveState : EnclaveState
  numberReceiveCallsExecuting : Nat
  sequenceWatermarks : PublicKeyAndTopic N → Option (BitVec 64)
  hasReceiveContext : Bool
  calls : Thread → List (Frame N)
  log : List (Event N)

def State.initial : State N Thread where
  lock := none
  enclaveState := .new
  numberReceiveCallsExecuting := 0
  sequenceWatermarks := fun _ => none
  hasReceiveContext := false
  calls := fun _ => []
  log := []

inductive Action where
  | start
  | stop
  | deliverMail (mail : DecryptedEnclaveMail N)
  | callEnclave
  /-- The next access of the thread's innermost activation. -/
  | advance
  /-- `receiveMail` or `receiveFromUntrustedHost` returns or throws. -/
  | finish (returned : Bool)

end Model

variable {N : Noise} {Thread : Type}

/-- The sender and topic whose order a mail is checked against; mail under a KDS
key is not checked. -/
def orderedPair (mail : DecryptedEnclaveMail N) : Option (PublicKeyAndTopic N) :=
  match mail.kdsPrivateKey with
  | some _ => none
  | none => some (mail.authenticatedSender, mail.topic)

/-- What `preReceive` starts with. -/
def Purpose.preReceive : Purpose N → Phase
  | .untrustedHost => .starting
  | .mail delivered =>
      match orderedPair delivered with
      | none => .starting
      | some _ => .lookingUp

variable [DecidableEq Thread] [DecidableEq N.PublicKey]

def passedOf (pair : PublicKeyAndTopic N) (log : List (Event N)) :
    List (DecryptedEnclaveMail N) :=
  log.filterMap fun
    | .passed mail => if orderedPair mail = some pair then some mail else none
    | .received _ _ => none

def receivedOf (pair : PublicKeyAndTopic N) (log : List (Event N)) :
    List (DecryptedEnclaveMail N × Nat) :=
  log.filterMap fun
    | .received mail ticket => if orderedPair mail = some pair then some (mail, ticket) else none
    | .passed _ => none

namespace State

def release (state : State N Thread) : State N Thread :=
  { state with lock := state.lock.release }

def setStack (state : State N Thread) (thread : Thread) (stack : List (Frame N)) :
    State N Thread :=
  { state with calls := Function.update state.calls thread stack }

/-- The call is over, by returning or by an exception, and `withLock` unlocks. -/
def unlockAndPop (state : State N Thread) (thread : Thread) (rest : List (Frame N)) :
    State N Thread :=
  (state.release).setStack thread rest

/-- The host can come in at the top of a thread, from a callback and from the
handler of a sealed state. -/
def canEnter (state : State N Thread) (thread : Thread) : Bool :=
  match state.calls thread with
  | [] => true
  | frame :: _ => frame.phase = .receiving || frame.phase = .sealing

def enter (state : State N Thread) (thread : Thread) (purpose : Purpose N) :
    Option (State N Thread) :=
  if state.canEnter thread then
    some (state.setStack thread (⟨purpose, .entering, 0⟩ :: state.calls thread))
  else none

def watermark (state : State N Thread) (pair : PublicKeyAndTopic N) : BitVec 64 :=
  (state.sequenceWatermarks pair).getD (-1)

/-- `computeIfAbsent(key) { SequenceWatermark() }`. -/
def computeIfAbsent (state : State N Thread) (pair : PublicKeyAndTopic N) : State N Thread :=
  { state with
    sequenceWatermarks :=
      Function.update state.sequenceWatermarks pair (some (state.watermark pair)) }

/-- `value++`, which is what passing the check comes down to. -/
def increment (state : State N Thread) (pair : PublicKeyAndTopic N)
    (mail : DecryptedEnclaveMail N) : State N Thread :=
  { state with
    sequenceWatermarks :=
      Function.update state.sequenceWatermarks pair (some (state.watermark pair + 1))
    log := state.log ++ [.passed mail] }

/-- The ordering check of `mail`, one access at a time. -/
def checkOrdering (state : State N Thread) (thread : Thread) (mail : DecryptedEnclaveMail N)
    (pair : PublicKeyAndTopic N) (frame : Frame N) (rest : List (Frame N)) :
    Option (State N Thread) :=
  match frame.phase with
  | .lookingUp =>
      some ((state.computeIfAbsent pair).setStack thread
        ({ frame with phase := .comparing } :: rest))
  | .comparing =>
      if mail.sequenceNumber = state.watermark pair + 1 then
        some (state.setStack thread ({ frame with phase := .incrementing } :: rest))
      else some (state.unlockAndPop thread rest)
  | .incrementing =>
      some ((state.increment pair mail).setStack thread
        ({ frame with
          phase := .starting
          ticket := (passedOf pair state.log).length } :: rest))
  | _ => none

/-- Behind `preReceive`: a thread-safe enclave counts the call and unlocks, one
with a persistent map sets the receive context or refuses to nest. -/
def startReceive (config : Config) (state : State N Thread) (thread : Thread) (frame : Frame N)
    (rest : List (Frame N)) : State N Thread :=
  let calling := { frame with phase := .calling } :: rest
  if config.threadSafe then
    ({ state with numberReceiveCallsExecuting := state.numberReceiveCallsExecuting + 1 }
      : State N Thread).release.setStack thread calling
  else if config.enablePersistentMap then
    if state.hasReceiveContext then state.unlockAndPop thread rest
    else ({ state with hasReceiveContext := true } : State N Thread).setStack thread calling
  else state.setStack thread calling

/-- Handing the mail over to `receiveMail`. -/
def callReceive (state : State N Thread) (frame : Frame N) : State N Thread :=
  match frame.purpose with
  | .untrustedHost => state
  | .mail mail => { state with log := state.log ++ [.received mail frame.ticket] }

def advance (config : Config) (state : State N Thread) (thread : Thread) (frame : Frame N)
    (rest : List (Frame N)) : Option (State N Thread) :=
  match frame.phase with
  | .entering =>
      if state.lock.available thread then
        some (({ state with lock := state.lock.acquire thread } : State N Thread).setStack thread
          ({ frame with phase := .checkingState } :: rest))
      else none
  | .checkingState =>
      if state.enclaveState = .started then
        some (state.setStack thread ({ frame with phase := frame.purpose.preReceive } :: rest))
      else some (state.unlockAndPop thread rest)
  | .lookingUp | .comparing | .incrementing =>
      match frame.purpose with
      | .untrustedHost => none
      | .mail mail =>
          match orderedPair mail with
          | none => none
          | some pair => state.checkOrdering thread mail pair frame rest
  | .starting => some (startReceive config state thread frame rest)
  | .calling =>
      some ((state.callReceive frame).setStack thread ({ frame with phase := .receiving } :: rest))
  | .receiving => none
  | .sealing => some (state.unlockAndPop thread rest)
  | .leaving =>
      if state.lock.available thread then
        some (({ state with
          numberReceiveCallsExecuting := state.numberReceiveCallsExecuting - 1 }
            : State N Thread).setStack thread rest)
      else none

/-- The receive method is over.  Sealing the state follows only if it returned. -/
def finish (config : Config) (state : State N Thread) (thread : Thread) (frame : Frame N)
    (rest : List (Frame N)) (returned : Bool) : Option (State N Thread) :=
  if frame.phase = .receiving then
    if config.threadSafe then
      some (state.setStack thread ({ frame with phase := .leaving } :: rest))
    else if config.enablePersistentMap then
      let cleared : State N Thread := { state with hasReceiveContext := false }
      if returned then
        some (cleared.setStack thread ({ frame with phase := .sealing } :: rest))
      else some (cleared.unlockAndPop thread rest)
    else some (state.unlockAndPop thread rest)
  else none

def step (config : Config) (state : State N Thread) :
    Thread × Action N → Option (State N Thread)
  | (thread, .start) =>
      if state.lock.available thread ∧ state.enclaveState = .new then
        some { state with enclaveState := .started }
      else none
  | (thread, .stop) =>
      if state.lock.available thread ∧ state.enclaveState = .started then
        some { state with enclaveState := .closed }
      else none
  | (thread, .deliverMail mail) => state.enter thread (.mail mail)
  | (thread, .callEnclave) => state.enter thread .untrustedHost
  | (thread, .advance) =>
      match state.calls thread with
      | [] => none
      | frame :: rest => advance config state thread frame rest
  | (thread, .finish returned) =>
      match state.calls thread with
      | [] => none
      | frame :: rest => finish config state thread frame rest returned

end State

end Conclave.Enclave
