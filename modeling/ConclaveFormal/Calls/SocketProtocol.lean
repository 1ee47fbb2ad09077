import ConclaveFormal.Calls.SocketMessage
import Mathlib.Logic.Function.Basic

/-!
# Calls over one socket connection

The host's thread and the enclave's worker of one connection take steps in any order.  Each
runs code that makes calls, or waits for a message.  A step runs to the next call, the end of a
handler or the next message.
-/

set_option autoImplicit false

namespace Conclave.Calls.Socket

open Conclave.Lib Conclave.Common

/-! ## The state of a connection -/

/-- A call, and whether the enclave sanitises exceptions when it replies. -/
structure Request (side : Side) where
  callType : CallType side
  parameterBuffer : Bytes
  sanitiseExceptions : Bool

abbrev CallTree (side : Side) : Type := Behaviour Side.other Request Answer side

/-- `call` waits for the reply to an outgoing call, `handling` is an incoming one. -/
inductive Frame (side : Side) where
  | call (id : Nat) (callType : CallType side) (next : Answer → CallTree side)
  | handling (id : Nat) (callType : CallType side.other) (sanitiseExceptions : Bool)

inductive Control (side : Side) where
  | running (code : CallTree side)
  | awaiting
  | stopped

/-- For the specification only: what travels beside a message.  A CALL message takes with it what
its handler is going to do, and a reply what its handler did. -/
inductive Note (side : Side) where
  | call (id : Nat) (sanitiseExceptions : Bool) (callee : CallTree side)
  | reply (id : Nat) (handled : Answer)

/-- The host's call context with the thread-local variable and the pool it is kept in, and the
thread-local variable of the enclave's worker. -/
structure Contexts where
  activeCalls : Nat
  hostCallContext : Bool
  callContextPool : Bool
  enclaveCallContext : Bool
  deriving DecidableEq, Repr

/-- For the specification only: a message with the call it belongs to. -/
structure Sent where
  id : Nat
  message : SocketCallInterfaceMessage

/-- For the specification only: the end of a call whose message was sent, with the reply that
ended it. -/
structure Exit where
  id : Nat
  reply : Option (Nat × Answer)
  result : Answer

/-- For the specification only. -/
structure History where
  sent : List Sent
  exits : List Exit

structure Connection where
  control : (side : Side) → Control side
  frames : (side : Side) → List (Frame side)
  inbox : Side → Bytes
  notes : (side : Side) → List (Note side)
  contexts : Contexts
  history : History

/-- A CALL message or a reply to it. -/
structure CallId where
  id : Nat
  callTypeID : UInt8
  deriving DecidableEq, Repr

namespace History

def calls (history : History) : List CallId :=
  history.sent.filterMap fun sent =>
    if sent.message.messageType = .CALL then some ⟨sent.id, sent.message.callTypeID⟩ else none

def replies (history : History) : List CallId :=
  history.sent.filterMap fun sent =>
    if sent.message.messageType = .RETURN ∨ sent.message.messageType = .EXCEPTION then
      some ⟨sent.id, sent.message.callTypeID⟩
    else none

end History

namespace Connection

/-! ## Messages -/

def setControl {side : Side} (control : Control side) (connection : Connection) : Connection :=
  { connection with control := Function.update connection.control side control }

def setFrames {side : Side} (frames : List (Frame side)) (connection : Connection) : Connection :=
  { connection with frames := Function.update connection.frames side frames }

def setContexts (contexts : Contexts) (connection : Connection) : Connection :=
  { connection with contexts }

def noteExit (exit : Exit) (connection : Connection) : Connection :=
  { connection with
    history := { connection.history with exits := connection.history.exits ++ [exit] } }

/-- `bytes` are those of the message. -/
def sendMessage {receiver : Side} (id : Nat) (message : SocketCallInterfaceMessage)
    (bytes : Bytes) (note : Note receiver) (connection : Connection) : Connection :=
  { connection with
    inbox := Function.update connection.inbox receiver
      (connection.inbox receiver ++ writeIntLengthPrefixBytes bytes)
    notes := Function.update connection.notes receiver (connection.notes receiver ++ [note])
    history := { connection.history with sent := connection.history.sent ++ [⟨id, message⟩] } }

end Connection

inductive Received where
  | notYet
  | malformed (rest : Bytes)
  | message (message : SocketCallInterfaceMessage) (rest : Bytes)

def receiveMessage (inbox : Bytes) : Received :=
  match Restore.readIntLengthPrefixBytes ((), inbox) with
  | (.error (.data .eof), _) => .notYet
  | (.error _, (_, rest)) => .malformed rest
  | (.ok messageBytes, (_, rest)) =>
      match SocketCallInterfaceMessage.fromByteArray messageBytes with
      | none => .malformed rest
      | some message => .message message rest

/-! ## Call contexts -/

inductive Entry where
  | entered (contexts : Contexts)
  | blocked
  | throws

/-- The host takes the context from the pool unless it is in a call already; the enclave has to
be in one. -/
def enterCall (side : Side) (contexts : Contexts) : Entry :=
  match side with
  | .host =>
      if contexts.hostCallContext then
        .entered { contexts with activeCalls := contexts.activeCalls + 1 }
      else if contexts.callContextPool then
        .entered { contexts with
          activeCalls := contexts.activeCalls + 1
          hostCallContext := true
          callContextPool := false }
      else .blocked
  | .enclave => if contexts.enclaveCallContext then .entered contexts else .throws

/-- The `finally` blocks of the host's `initiateCall` and `executeOutgoingCall`. -/
def leaveCall (side : Side) (contexts : Contexts) : Contexts :=
  match side with
  | .host =>
      let activeCalls := contexts.activeCalls - 1
      if activeCalls = 0 then
        { contexts with activeCalls, hostCallContext := false, callContextPool := true }
      else { contexts with activeCalls }
  | .enclave => contexts

/-- The `finally` block of the enclave's `handleInitialCall`. -/
def leaveHandler {side : Side} (rest : List (Frame side)) (contexts : Contexts) : Contexts :=
  match side, rest with
  | .enclave, [] => { contexts with enclaveCallContext := false }
  | _, _ => contexts

/-! ## Calls -/

section Interface

variable (runtime : Runtime)

/-- An exception leaves the loop that waits for messages.  It ends the call that waits, or the
enclave's worker, which closes the socket; the host notices that when it reads. -/
def throwOut (side : Side) (exception : InterfaceException) (connection : Connection) :
    Connection :=
  match connection.frames side with
  | .call id _ next :: rest =>
      let result : Answer := .error (runtime.throwable exception)
      connection
        |>.setContexts (leaveCall side connection.contexts)
        |>.noteExit ⟨id, none, result⟩
        |>.setFrames rest
        |>.setControl (.running (next result))
  | _ => connection.setControl (Control.stopped : Control side)

def executeOutgoingCall {side : Side} (request : Request side) (callee : CallTree side.other)
    (next : Answer → CallTree side) (connection : Connection) : Option Connection :=
  match enterCall side connection.contexts with
  | .blocked => none
  | .throws =>
      some (connection.setControl (.running (next (.error (runtime.throwable (.illegalState
        "Outgoing host calls may not occur outside the context of an enclave call."))))))
  | .entered contexts =>
      let message : SocketCallInterfaceMessage :=
        ⟨.CALL, request.callType.toByte, some request.parameterBuffer⟩
      match message.toByteArray with
      | none =>
          some (connection
            |>.setContexts (leaveCall side contexts)
            |>.setControl (.running (next (.error (runtime.throwable .illegalArgument)))))
      | some bytes =>
          let id := connection.history.calls.length
          some (connection
            |>.setContexts contexts
            |>.sendMessage id message bytes (.call id request.sanitiseExceptions callee)
            |>.setFrames (.call id request.callType next :: connection.frames side)
            |>.setControl (Control.awaiting : Control side))

/-- The reply of `side` to a call it has handled. -/
def replyMessage (side : Side) (callType : CallType side.other) (sanitiseExceptions : Bool) :
    Answer → Except InterfaceException SocketCallInterfaceMessage
  | .ok returnBuffer => .ok ⟨.RETURN, callType.toByte, returnBuffer⟩
  | .error throwable =>
      match ThrowableSerialisation.serialise
          (maybeSanitised runtime side sanitiseExceptions throwable) with
      | .error error => .error (.serialisation error)
      | .ok bytes => .ok ⟨.EXCEPTION, callType.toByte, some bytes⟩

/-- The bytes of the reply.  What is thrown here is thrown where no `catch` is. -/
def reply (side : Side) (callType : CallType side.other) (sanitiseExceptions : Bool)
    (answer : Answer) : Except InterfaceException (SocketCallInterfaceMessage × Bytes) := do
  let message ← replyMessage runtime side callType sanitiseExceptions answer
  match message.toByteArray with
  | none => .error .illegalArgument
  | some bytes => .ok (message, bytes)

/-- The end of `handleCallMessage`, once its handler has returned or thrown. -/
def finishHandler {side : Side} (answer : Answer) (connection : Connection) : Option Connection :=
  match connection.frames side with
  | .handling id callType sanitiseExceptions :: rest =>
      let left := connection
        |>.setContexts (leaveHandler rest connection.contexts)
        |>.setFrames rest
      match reply runtime side callType sanitiseExceptions answer with
      | .error exception => some (throwOut runtime side exception left)
      | .ok (message, bytes) =>
          some (left
            |>.sendMessage id message bytes (Note.reply id answer : Note side.other)
            |>.setControl (Control.awaiting : Control side))
  | _ => none

/-- `handleCallMessage` until its handler starts. -/
def handleCallMessage (side : Side) (callMessage : SocketCallInterfaceMessage) (note : Note side)
    (connection : Connection) : Option Connection :=
  match CallType.fromByte side.other callMessage.callTypeID, callMessage.payload, note with
  | none, _, _ => some (throwOut runtime side .illegalArgument connection)
  | some _, none, _ =>
      some (throwOut runtime side
        (.illegalState "Received call message without parameter bytes.") connection)
  | some callType, some _, .call id sanitiseExceptions callee =>
      some (connection
        |>.setFrames (.handling id callType sanitiseExceptions :: connection.frames side)
        |>.setControl (.running callee))
  | some _, some _, .reply _ _ => none

/-- What a call comes to when a message ends it. -/
def resultOf {side : Side} (callType : CallType side) (replyMessage : SocketCallInterfaceMessage) :
    Answer :=
  if CallType.fromByte side replyMessage.callTypeID = some callType then
    if replyMessage.messageType = .EXCEPTION then
      match replyMessage.payload with
      | none => .error (runtime.throwable
          (.illegalState "Received exception message without parameter bytes."))
      | some replyPayload => .error (runtime.deserialise replyPayload)
    else .ok replyMessage.payload
  else .error (runtime.throwable (.illegalState "Check failed."))

def Note.asReply {side : Side} : Note side → Option (Nat × Answer)
  | .reply id answer => some (id, answer)
  | .call _ _ _ => none

/-- A message that ends the loop of `initiateCall`. -/
def finishCall {side : Side} (id : Nat) (callType : CallType side)
    (next : Answer → CallTree side) (rest : List (Frame side))
    (message : SocketCallInterfaceMessage) (note : Note side) (connection : Connection) :
    Connection :=
  let result := resultOf runtime callType message
  connection
    |>.setContexts (leaveCall side connection.contexts)
    |>.noteExit ⟨id, note.asReply, result⟩
    |>.setFrames rest
    |>.setControl (.running (next result))

/-- `handlerLoop` and `handleInitialCall`. -/
def handleInitialMessage (side : Side) (message : SocketCallInterfaceMessage) (note : Note side)
    (connection : Connection) : Option Connection :=
  if message.messageType = .STOP then some (connection.setControl (Control.stopped : Control side))
  else if message.messageType = .CALL ∧ connection.contexts.enclaveCallContext = false then
    handleCallMessage runtime side message note
      (connection.setContexts { connection.contexts with enclaveCallContext := true })
  else some (throwOut runtime side (.illegalState "Check failed.") connection)

def awaitMessage (side : Side) (connection : Connection) : Option Connection :=
  match receiveMessage (connection.inbox side), connection.notes side with
  | .notYet, _ =>
      match connection.control side.other with
      | .stopped => some (throwOut runtime side .eof connection)
      | _ => none
  | .malformed rest, _ =>
      some (throwOut runtime side .illegalArgument
        { connection with inbox := Function.update connection.inbox side rest })
  | .message _ _, [] => none
  | .message message rest, note :: notes =>
      let connection := { connection with
        inbox := Function.update connection.inbox side rest
        notes := Function.update connection.notes side notes }
      match connection.frames side with
      | [] => handleInitialMessage runtime side message note connection
      | .call id callType next :: outer =>
          if message.messageType = .CALL then
            handleCallMessage runtime side message note connection
          else some (finishCall runtime id callType next outer message note connection)
      | .handling _ _ _ :: _ => none

def step (connection : Connection) (side : Side) : Option Connection :=
  match connection.control side with
  | .running (.call request callee next) =>
      executeOutgoingCall runtime request callee next connection
  | .running (.done answer) => @finishHandler runtime side answer connection
  | .awaiting => awaitMessage runtime side connection
  | .stopped => none

end Interface

end Conclave.Calls.Socket
