import ConclaveFormal.Lib.Gathered
import ConclaveFormal.Lib.Transition
import Mathlib.Data.Fintype.Basic

/-!
# The inbox of a client

What the enclave posts stays in the transaction of its thread until a sealed state, or the end of
the outermost call, hands it to the callback.  There the first mail to the sender becomes, by way of
a thread local, what `deliverMail` returns; every other mail goes to the queue that the client
polls.
-/

set_option autoImplicit false

namespace Conclave.Host.EnclaveHostService

open Conclave.Lib

/-- What `synchronousResponse` holds. -/
inductive Slot (Hint Mail : Type) where
  | routingHint (hint : Hint)
  | response (encryptedMail : Mail)
  deriving DecidableEq, Repr

inductive MailCommand (Hint Mail : Type) where
  | postMail (routingHint : Option Hint) (encryptedBytes : Mail)
  | storeSealedState
  deriving DecidableEq, Repr

/-- A call is in the enclave, or in `commandsCallback` with the commands that are left: for a sealed
state, or as the `last` thing that the outermost call does. -/
inductive Phase (Hint Mail : Type) where
  | intoEnclave
  | firing (commands : List (MailCommand Hint Mail)) (last : Bool)
  deriving DecidableEq, Repr

/-- A call of `deliverMail`. -/
structure Delivery (Hint Mail : Type) where
  routingHint : Hint
  phase : Phase Hint Mail
  deriving DecidableEq, Repr

/-- `mailCommands` are those of the thread's transaction, and `deliveries` the calls it is in, the
innermost one first. -/
structure HostThread (Hint Mail : Type) where
  synchronousResponse : Option (Slot Hint Mail)
  mailCommands : List (MailCommand Hint Mail)
  deliveries : List (Delivery Hint Mail)
  deriving DecidableEq, Repr

section State

variable (Thread Hint Mail : Type)

/-- `posted`, in the order of `postMail` in the enclave, and `obtained` are for the proofs only. -/
structure State where
  threads : Thread → HostThread Hint Mail
  asynchronousResponses : Hint → Option (List Mail)
  posted : Hint → List Mail
  obtained : Hint → List Mail

def State.initial : State Thread Hint Mail where
  threads := fun _ => ⟨none, [], []⟩
  asynchronousResponses := fun _ => none
  posted := fun _ => []
  obtained := fun _ => []

inductive Action where
  | deliverMail (thread : Thread) (routingHint : Hint)
  | postMail (thread : Thread) (routingHint : Option Hint) (encryptedMail : Mail)
  | sendSealedState (thread : Thread)
  | enclaveReturns (thread : Thread)
  | enclaveThrows (thread : Thread)
  /-- The callback goes on by one command; `storeSealedState` returns. -/
  | command (thread : Thread)
  | storeSealedStateThrows (thread : Thread)
  | pollMail (routingHint : Hint)
  deriving DecidableEq, Repr

end State

variable {Thread Hint Mail : Type}

namespace Phase

def commands : Phase Hint Mail → List (MailCommand Hint Mail)
  | intoEnclave => []
  | firing commands _ => commands

/-- Code of the user runs on the thread and may call `deliverMail`: the callback that the call was
given, or `storeSealedState`. -/
def allowsCalls : Phase Hint Mail → Bool
  | intoEnclave | firing (.storeSealedState :: _) false => true
  | _ => false

end Phase

/-- `synchronousResponse.get() as? ByteArray`. -/
def Slot.asResponse : Option (Slot Hint Mail) → Option Mail
  | some (.response mail) => some mail
  | _ => none

namespace HostThread

variable (thread : HostThread Hint Mail)

/-- `onMail` and the first half of `onSealedState`. -/
def addCommand (command : MailCommand Hint Mail) : HostThread Hint Mail :=
  { thread with mailCommands := thread.mailCommands ++ [command] }

/-- The list is copied and cleared before the callback is invoked. -/
def fireMailCommands (routingHint : Hint) (outer : List (Delivery Hint Mail)) (last : Bool) :
    HostThread Hint Mail :=
  { thread with
    mailCommands := []
    deliveries := ⟨routingHint, .firing thread.mailCommands last⟩ :: outer }

def inPhase (routingHint : Hint) (outer : List (Delivery Hint Mail)) (phase : Phase Hint Mail) :
    HostThread Hint Mail :=
  { thread with deliveries := ⟨routingHint, phase⟩ :: outer }

/-- The `finally` block of `deliverMail`. -/
def leave (outer : List (Delivery Hint Mail)) : HostThread Hint Mail :=
  { thread with synchronousResponse := none, deliveries := outer }

end HostThread

namespace State

variable (state : State Thread Hint Mail)

/-- The mail that waits to be polled; an empty queue is removed from the map. -/
def waiting (hint : Hint) : List Mail := (state.asynchronousResponses hint).getD []

def setThread [DecidableEq Thread] (thread : Thread) (here : HostThread Hint Mail) :
    State Thread Hint Mail :=
  { state with threads := Function.update state.threads thread here }

section Hints

variable [DecidableEq Hint]

def receive (hint : Hint) (mail : Option Mail) : State Thread Hint Mail :=
  { state with
    obtained := Function.update state.obtained hint (state.obtained hint ++ mail.toList) }

/-- `asynchronousResponses` with a new queue for the hint. -/
def setQueue (hint : Hint) (queue : List Mail) : State Thread Hint Mail :=
  { state with
    asynchronousResponses := Function.update state.asynchronousResponses hint
      (if queue.isEmpty then none else some queue) }

def pollMail (hint : Hint) : State Thread Hint Mail :=
  match state.asynchronousResponses hint with
  | none => state
  | some queue => (state.receive hint queue.head?).setQueue hint queue.tail

end Hints

variable [DecidableEq Thread] [DecidableEq Hint]

/-- `postMail` in the enclave, which sends the bytes to `onMail`. -/
def postMail (thread : Thread) (routingHint : Option Hint) (mail : Mail) :
    State Thread Hint Mail :=
  { state with
    posted := fun hint => state.posted hint ++ if routingHint = some hint then [mail] else []
  }.setThread thread ((state.threads thread).addCommand (.postMail routingHint mail))

/-- The rest of `commands` is what the callback goes on with. -/
def processPostMail (thread : Thread) (delivery : Hint) (outer : List (Delivery Hint Mail))
    (hint : Hint) (mail : Mail) (rest : List (MailCommand Hint Mail)) (last : Bool) :
    State Thread Hint Mail :=
  let here := (state.threads thread).inPhase delivery outer (.firing rest last)
  match here.synchronousResponse with
  | some (.routingHint current) =>
      if current = hint then
        state.setThread thread { here with synchronousResponse := some (.response mail) }
      else (state.setQueue hint (state.waiting hint ++ [mail])).setThread thread here
  | _ => (state.setQueue hint (state.waiting hint ++ [mail])).setThread thread here

/-- `deliverMail` throws, and what is in the thread local is gone. -/
def throws (thread : Thread) (outer : List (Delivery Hint Mail)) : State Thread Hint Mail :=
  state.setThread thread ((state.threads thread).leave outer)

def returns (thread : Thread) (hint : Hint) (outer : List (Delivery Hint Mail)) :
    State Thread Hint Mail :=
  (state.receive hint (Slot.asResponse (state.threads thread).synchronousResponse)).throws thread
    outer

end State

section Step

variable [DecidableEq Thread] [DecidableEq Hint]

/-- The enclave's part of a call, which a nested call on the thread has to end first. -/
def enclaveStep (state : State Thread Hint Mail) (thread : Thread)
    (proceed : Hint → List (Delivery Hint Mail) → State Thread Hint Mail) :
    Option (State Thread Hint Mail) :=
  match (state.threads thread).deliveries with
  | ⟨hint, .intoEnclave⟩ :: outer => some (proceed hint outer)
  | _ => none

def step (state : State Thread Hint Mail) :
    Action Thread Hint Mail → Option (State Thread Hint Mail)
  | .deliverMail thread hint =>
      let here := state.threads thread
      if here.deliveries.head?.all fun delivery => delivery.phase.allowsCalls then
        some (state.setThread thread { here with
          synchronousResponse := some (.routingHint hint)
          deliveries := ⟨hint, .intoEnclave⟩ :: here.deliveries })
      else none
  | .postMail thread routingHint mail =>
      enclaveStep state thread fun _ _ => state.postMail thread routingHint mail
  | .sendSealedState thread =>
      enclaveStep state thread fun hint outer => state.setThread thread
        (((state.threads thread).addCommand .storeSealedState).fireMailCommands hint outer false)
  | .enclaveReturns thread =>
      enclaveStep state thread fun hint outer =>
        if outer = [] ∧ (state.threads thread).mailCommands ≠ [] then
          state.setThread thread ((state.threads thread).fireMailCommands hint outer true)
        else state.returns thread hint outer
  | .enclaveThrows thread => enclaveStep state thread fun _ outer => state.throws thread outer
  | .command thread =>
      match (state.threads thread).deliveries with
      | ⟨hint, .firing [] last⟩ :: outer =>
          -- A sealed state is sent from within the enclave, which has nothing left to do.
          if last then some (state.returns thread hint outer)
          else some (state.setThread thread
            ((state.threads thread).inPhase hint outer .intoEnclave))
      | ⟨_, .firing (.postMail none _ :: _) _⟩ :: outer =>
          -- `checkNotNull` throws out of the callback, through the enclave or behind it.
          some (state.throws thread outer)
      | ⟨hint, .firing (.postMail (some routingHint) mail :: rest) last⟩ :: outer =>
          some (state.processPostMail thread hint outer routingHint mail rest last)
      | ⟨hint, .firing (.storeSealedState :: rest) last⟩ :: outer =>
          some (state.setThread thread
            ((state.threads thread).inPhase hint outer (.firing rest last)))
      | _ => none
  | .storeSealedStateThrows thread =>
      match (state.threads thread).deliveries with
      | ⟨_, .firing (.storeSealedState :: _) _⟩ :: outer => some (state.throws thread outer)
      | _ => none
  | .pollMail hint => some (state.pollMail hint)

end Step

/-! ## One sequential client -/

/-- The mail to the client in a list of commands. -/
def mailsTo [DecidableEq Hint] (hint : Hint) (commands : List (MailCommand Hint Mail)) :
    List Mail :=
  commands.filterMap fun
    | .postMail routingHint mail => if routingHint = some hint then some mail else none
    | .storeSealedState => none

/-- What the callback that the innermost call is in has not come to. -/
def commandsLeft : List (Delivery Hint Mail) → List (MailCommand Hint Mail)
  | [] => []
  | delivery :: _ => delivery.phase.commands

namespace HostThread

def clients (thread : HostThread Hint Mail) : List Hint :=
  thread.deliveries.map Delivery.routingHint

variable [DecidableEq Hint] (hint : Hint) (thread : HostThread Hint Mail)

/-- The reply to the client that `deliverMail` has not returned yet. -/
def held : List Mail :=
  if thread.deliveries.head?.map Delivery.routingHint = some hint then
    (Slot.asResponse thread.synchronousResponse).toList
  else []

/-- The mail to the client that the callback has not seen yet. -/
def pending : List Mail :=
  mailsTo hint (commandsLeft thread.deliveries) ++ mailsTo hint thread.mailCommands

end HostThread

section Client

variable (hint : Hint)

/-- What the client has obtained is the first of what the enclave has posted to it. -/
def InOrder (state : State Thread Hint Mail) : Prop :=
  state.obtained hint <+: state.posted hint

/-- The client does not call on a second thread, and does not poll, before `deliverMail` has come
back. -/
def Sequential (state : State Thread Hint Mail) : Action Thread Hint Mail → Prop
  | .deliverMail thread routingHint =>
      routingHint = hint → ∀ other, other ≠ thread → hint ∉ (state.threads other).clients
  | .pollMail routingHint => routingHint = hint → ∀ thread, hint ∉ (state.threads thread).clients
  | _ => True

variable [DecidableEq Hint]

/-- The callback goes on with the first of `commands` and does the client no harm: no reply and no
mail to the client is thrown away, and a reply is taken only when nothing older waits. -/
def CommandUndisturbed (state : State Thread Hint Mail) (here : HostThread Hint Mail) :
    List (MailCommand Hint Mail) → Prop
  | .postMail none _ :: rest => here.held hint = [] ∧ mailsTo hint rest = []
  | .postMail (some routingHint) _ :: _ =>
      routingHint = hint → here.synchronousResponse = some (.routingHint hint) →
        state.waiting hint = []
  | _ => True

/-- Mail to the client is posted while none waits on another thread to be handed over, no reply is
taken while older mail waits to be polled, no mail to the client stands behind a command that
throws, and a `deliverMail` with a reply neither throws nor is interrupted by another on its
thread. -/
def Undisturbed (state : State Thread Hint Mail) : Action Thread Hint Mail → Prop
  | .postMail thread routingHint _ =>
      routingHint = some hint → ∀ other, other ≠ thread → (state.threads other).pending hint = []
  | .command thread => CommandUndisturbed hint state (state.threads thread)
      (commandsLeft (state.threads thread).deliveries)
  | .deliverMail thread _ | .enclaveThrows thread | .storeSealedStateThrows thread =>
      (state.threads thread).held hint = []
  | _ => True

section Decidable

variable [DecidableEq Thread] [Fintype Thread] [DecidableEq Mail]

instance (state : State Thread Hint Mail) :
    (action : Action Thread Hint Mail) → Decidable (Sequential hint state action)
  | .deliverMail thread routingHint =>
      inferInstanceAs (Decidable (routingHint = hint → ∀ other, other ≠ thread →
        hint ∉ (state.threads other).clients))
  | .pollMail routingHint =>
      inferInstanceAs (Decidable (routingHint = hint → ∀ thread,
        hint ∉ (state.threads thread).clients))
  | .postMail _ _ _ | .sendSealedState _ | .enclaveReturns _ | .enclaveThrows _ | .command _
  | .storeSealedStateThrows _ => isTrue trivial

instance (state : State Thread Hint Mail) (here : HostThread Hint Mail) :
    (commands : List (MailCommand Hint Mail)) →
      Decidable (CommandUndisturbed hint state here commands)
  | .postMail none _ :: rest =>
      inferInstanceAs (Decidable (here.held hint = [] ∧ mailsTo hint rest = []))
  | .postMail (some routingHint) _ :: _ =>
      inferInstanceAs (Decidable (routingHint = hint →
        here.synchronousResponse = some (.routingHint hint) → state.waiting hint = []))
  | [] | .storeSealedState :: _ => isTrue trivial

instance (state : State Thread Hint Mail) :
    (action : Action Thread Hint Mail) → Decidable (Undisturbed hint state action)
  | .postMail thread routingHint _ =>
      inferInstanceAs (Decidable (routingHint = some hint → ∀ other, other ≠ thread →
        (state.threads other).pending hint = []))
  | .command thread =>
      inferInstanceAs (Decidable (CommandUndisturbed hint state (state.threads thread)
        (commandsLeft (state.threads thread).deliveries)))
  | .deliverMail thread _ | .enclaveThrows thread | .storeSealedStateThrows thread =>
      inferInstanceAs (Decidable ((state.threads thread).held hint = []))
  | .sendSealedState _ | .enclaveReturns _ | .pollMail _ => isTrue trivial

end Decidable

end Client

end Conclave.Host.EnclaveHostService
