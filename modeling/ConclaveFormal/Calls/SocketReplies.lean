import ConclaveFormal.Calls.SocketProtocol
import ConclaveFormal.Lib.Transition

/-!
# Every call is answered

If every handler can reply, then only one side of a connection can move at a time, and each
call comes back to the connection it was made on.
-/

set_option autoImplicit false

namespace Conclave.Calls.Socket

open Conclave.Lib Conclave.Common

/-! ## What a connection should come to -/

section Specification

variable (runtime : Runtime)

/-- The parameters fit into a message. -/
def Request.Fits {side : Side} (request : Request side) : Prop :=
  request.parameterBuffer.length + 7 < 2 ^ 31

instance {side : Side} (request : Request side) : Decidable request.Fits :=
  inferInstanceAs (Decidable (_ < _))

/-- What the caller gets of an exception of the handler. -/
def received {side : Side} (request : Request side) (throwable : Throwable) : Answer :=
  match ThrowableSerialisation.serialise
      (maybeSanitised runtime side.other request.sanitiseExceptions throwable) with
  | .error error => .error (runtime.throwable (.serialisation error))
  | .ok bytes => .error (runtime.deserialise bytes)

def receive {side : Side} (request : Request side) (answer : Answer) : Answer :=
  if request.Fits then
    match answer with
    | .ok returnBuffer => .ok returnBuffer
    | .error throwable => received runtime request throwable
  else .error (runtime.throwable .illegalArgument)

/-- The reply fits into a message. -/
def Replied {side : Side} (request : Request side) : Answer → Prop
  | .ok none => True
  | .ok (some bytes) => bytes.length + 7 < 2 ^ 31
  | .error throwable => ∃ bytes, ThrowableSerialisation.serialise
      (maybeSanitised runtime side.other request.sanitiseExceptions throwable) = .ok bytes ∧
        bytes.length + 7 < 2 ^ 31

end Specification

/-- Bytes, or null, as the handler returned them, or an exception if it threw one. -/
def Passed : Answer → Answer → Prop
  | .ok returnBuffer, result => result = .ok returnBuffer
  | .error _, result => ∃ thrown, result = .error thrown

/-- The call was ended by the reply to it. -/
def Exit.Correct (exit : Exit) : Prop :=
  ∃ answer, exit.reply = some (exit.id, answer) ∧ Passed answer exit.result

/-- Nothing is left of the calls that were made. -/
structure Connection.Settled (connection : Connection) : Prop where
  answered : ∀ call ∈ connection.history.calls,
    connection.history.replies.filter (fun reply => reply.id = call.id) = [call]
  ended : (connection.history.exits.map Exit.id).Perm (connection.history.calls.map CallId.id)
  exits : ∀ exit ∈ connection.history.exits, exit.Correct
  unread : ∀ side, connection.inbox side = []
  idle : connection.control .enclave = .awaiting
  noFrames : connection.frames .enclave = []
  contexts : connection.contexts = ⟨0, false, true, false⟩

/-- The host's code has come to its end. -/
def Connection.Finished (connection : Connection) : Prop :=
  connection.frames .host = [] ∧ ∃ answer, connection.control .host = .running (.done answer)

def connected (code : CallTree .host) : Connection where
  control
    | .host => .running code
    | .enclave => .awaiting
  frames _ := []
  inbox _ := []
  notes _ := []
  contexts := ⟨0, false, true, false⟩
  history := ⟨[], []⟩

/-- Whatever the order of the steps of both sides: where the host's code is outside of calls,
nothing is left of them, and it can always go on to its end. -/
def AlwaysSettles (runtime : Runtime) (code : CallTree .host) : Prop :=
  ∀ schedule connection,
    run (step runtime) (connected code) schedule = some connection →
      (connection.frames .host = [] → connection.Settled) ∧
        ∃ later final, run (step runtime) connection later = some final ∧ final.Finished

/-! ## Messages come out as they went in -/

theorem receiveMessage_sent {message : SocketCallInterfaceMessage} {bytes : Bytes}
    (written : message.toByteArray = some bytes) :
    receiveMessage (writeIntLengthPrefixBytes bytes) = .message message [] := by
  have small : bytes.length < 2 ^ 31 := by
    rw [SocketCallInterfaceMessage.length_toByteArray written]
    exact SocketCallInterfaceMessage.size_lt_of_written written
  have taken := Restores.readIntLengthPrefixBytes (σ := Unit) small () []
  rw [List.append_nil] at taken
  rw [receiveMessage, taken]
  simp only [SocketCallInterfaceMessage.fromByteArray_toByteArray written]

theorem receiveMessage_nil : receiveMessage [] = .notYet := rfl

/-! ## The two shapes of a connection -/

abbrev Frames : Type := (side : Side) → List (Frame side)

def push {side : Side} (frame : Frame side) (frames : Frames) : Frames :=
  Function.update frames side (frame :: frames side)

@[simp] theorem push_same {side : Side} (frame : Frame side) (frames : Frames) :
    push frame frames side = frame :: frames side :=
  Function.update_self ..

@[simp] theorem push_pop {side : Side} (frame : Frame side) (frames : Frames) :
    Function.update (push frame frames) side (frames side) = frames := by
  rw [push, Function.update_idem, Function.update_eq_self]

def Frame.isCall {side : Side} : Frame side → Bool
  | .call _ _ _ => true
  | .handling _ _ _ => false

def contextsOf (frames : Frames) : Contexts where
  activeCalls := (frames .host).countP Frame.isCall
  hostCallContext := 0 < (frames .host).countP Frame.isCall
  callContextPool := (frames .host).countP Frame.isCall = 0
  enclaveCallContext := !(frames .enclave).isEmpty

/-- Code runs on one side, and the other side waits. -/
def working {side : Side} (code : CallTree side) (frames : Frames) (history : History) :
    Connection where
  control := Function.update (fun _ => .awaiting) side (.running code)
  frames
  inbox _ := []
  notes _ := []
  contexts := contextsOf frames
  history

/-- A message is on its way, and both sides wait. -/
def carrying {receiver : Side} (bytes : Bytes) (note : Note receiver) (frames : Frames)
    (history : History) : Connection where
  control _ := .awaiting
  frames
  inbox := Function.update (fun _ => []) receiver (writeIntLengthPrefixBytes bytes)
  notes := Function.update (fun _ => []) receiver [note]
  contexts := contextsOf frames
  history

def History.send (id : Nat) (message : SocketCallInterfaceMessage) (history : History) :
    History :=
  { history with sent := history.sent ++ [⟨id, message⟩] }

def History.exit (exit : Exit) (history : History) : History :=
  { history with exits := history.exits ++ [exit] }

theorem connected_eq_working (code : CallTree .host) :
    connected code = working code (fun _ => []) ⟨[], []⟩ := by
  have control : (connected code).control =
      Function.update (fun _ => .awaiting) .host (.running code) := by
    funext side
    cases side with
    | host => rfl
    | enclave => rfl
  rw [working, ← control]
  rfl

/-! ## The steps of a call -/

@[simp] theorem update_awaiting (side : Side) :
    Function.update (fun _ => .awaiting : (side : Side) → Control side) side .awaiting =
      fun _ => .awaiting :=
  Function.update_eq_self ..

@[simp] theorem update_nil {α : Side → Type} (side : Side) :
    Function.update (fun _ => [] : (side : Side) → List (α side)) side [] = fun _ => [] :=
  Function.update_eq_self ..


section Steps

variable {runtime : Runtime}

def callMessage {side : Side} (request : Request side) : SocketCallInterfaceMessage :=
  ⟨.CALL, request.callType.toByte, some request.parameterBuffer⟩

theorem enterCall_contextsOf {side : Side} (id : Nat) (callType : CallType side)
    (next : Answer → CallTree side) {frames : Frames}
    (inside : side = .enclave → frames .enclave ≠ []) :
    enterCall side (contextsOf frames) =
      .entered (contextsOf (push (.call id callType next) frames)) := by
  cases side with
  | host =>
      simp only [enterCall, contextsOf, push, Function.update_self, List.countP_cons, Frame.isCall]
      by_cases outermost : (frames .host).countP Frame.isCall = 0
      · simp [outermost]
      · simp [outermost, Nat.pos_of_ne_zero outermost]
  | enclave =>
      have nonempty := inside rfl
      simp [enterCall, contextsOf, push, nonempty]

theorem leaveCall_contextsOf {side : Side} (id : Nat) (callType : CallType side)
    (next : Answer → CallTree side) {frames : Frames}
    (inside : side = .enclave → frames .enclave ≠ []) :
    leaveCall side (contextsOf (push (.call id callType next) frames)) = contextsOf frames := by
  cases side with
  | host =>
      simp only [leaveCall, contextsOf, push, Function.update_self, List.countP_cons, Frame.isCall]
      by_cases outermost : (frames .host).countP Frame.isCall = 0
      · simp [outermost]
      · simp [outermost, Nat.pos_of_ne_zero outermost]
  | enclave =>
      have nonempty := inside rfl
      simp [leaveCall, contextsOf, push, nonempty]

theorem contextsOf_handling {side : Side} (id : Nat) (callType : CallType side.other)
    (sanitiseExceptions : Bool) {frames : Frames}
    (inside : side = .enclave → frames .enclave ≠ []) :
    contextsOf (push (.handling id callType sanitiseExceptions) frames) = contextsOf frames := by
  cases side with
  | host => simp [contextsOf, push, Frame.isCall]
  | enclave =>
      have nonempty := inside rfl
      simp [contextsOf, push, nonempty]

theorem working_control {side : Side} (code : CallTree side) (frames : Frames)
    (history : History) : (working code frames history).control side = .running code :=
  Function.update_self ..

theorem executeOutgoingCall_sends {side : Side} {request : Request side}
    {callee : CallTree side.other} {next : Answer → CallTree side} {frames : Frames}
    {history : History} {bytes : Bytes} (inside : side = .enclave → frames .enclave ≠ [])
    (written : (callMessage request).toByteArray = some bytes) :
    step runtime (working (.call request callee next) frames history) side =
      some (carrying bytes
        (.call history.calls.length request.sanitiseExceptions callee)
        (push (.call history.calls.length request.callType next) frames)
        (history.send history.calls.length (callMessage request))) := by
  rw [step, working_control]
  simp only [executeOutgoingCall]
  have entered := enterCall_contextsOf history.calls.length request.callType next inside
  have contexts : (working (.call request callee next) frames history).contexts =
      contextsOf frames := rfl
  rw [contexts, entered]
  simp only [callMessage] at written
  simp only [written]
  simp only [working, carrying, Connection.setControl, Connection.setFrames,
    Connection.sendMessage, Connection.setContexts, Function.update_idem, update_awaiting]
  rfl

theorem executeOutgoingCall_tooLarge {side : Side} {request : Request side}
    {callee : CallTree side.other} {next : Answer → CallTree side} {frames : Frames}
    {history : History} (inside : side = .enclave → frames .enclave ≠ [])
    (unwritten : (callMessage request).toByteArray = none) :
    step runtime (working (.call request callee next) frames history) side =
      some (working (next (.error (runtime.throwable .illegalArgument))) frames history) := by
  rw [step, working_control]
  simp only [executeOutgoingCall]
  have entered := enterCall_contextsOf history.calls.length request.callType next inside
  have contexts : (working (.call request callee next) frames history).contexts =
      contextsOf frames := rfl
  rw [contexts, entered]
  simp only [callMessage] at unwritten
  simp only [unwritten]
  rw [leaveCall_contextsOf _ _ _ inside]
  simp only [working, Connection.setControl, Connection.setContexts, Function.update_idem]

/-- The side waits for a reply, or it is the enclave's idle worker. -/
def Waits (side : Side) (frames : Frames) : Prop :=
  (∃ id callType next rest, frames side = .call id callType next :: rest) ∨
    (side = .enclave ∧ frames side = [])

theorem handleCallMessage_starts {side : Side} {callType : CallType side.other}
    {message : SocketCallInterfaceMessage} {payload : Bytes} {id : Nat}
    {sanitiseExceptions : Bool} {callee : CallTree side} {connection : Connection}
    (known : CallType.fromByte side.other message.callTypeID = some callType)
    (filled : message.payload = some payload) :
    handleCallMessage runtime side message (.call id sanitiseExceptions callee) connection =
      some (connection
        |>.setFrames (.handling id callType sanitiseExceptions :: connection.frames side)
        |>.setControl (.running callee)) := by
  simp only [handleCallMessage, known, filled]

theorem awaitMessage_handles {side : Side} {callType : CallType side.other}
    {message : SocketCallInterfaceMessage} {bytes payload : Bytes} {id : Nat}
    {sanitiseExceptions : Bool} {callee : CallTree side} {frames : Frames} {history : History}
    (waits : Waits side frames) (written : message.toByteArray = some bytes)
    (isCall : message.messageType = .CALL)
    (known : CallType.fromByte side.other message.callTypeID = some callType)
    (filled : message.payload = some payload) :
    step runtime (carrying bytes (.call id sanitiseExceptions callee) frames history) side =
      some (working callee (push (.handling id callType sanitiseExceptions) frames)
        history) := by
  have inbox : receiveMessage ((carrying bytes (.call id sanitiseExceptions callee) frames
      history).inbox side) = .message message [] := by
    simp only [carrying, Function.update_self, receiveMessage_sent written]
  have notes : (carrying bytes (.call id sanitiseExceptions callee) frames history).notes side =
      [.call id sanitiseExceptions callee] := by
    simp only [carrying, Function.update_self]
  have current : (carrying bytes (.call id sanitiseExceptions callee) frames history).frames =
      frames := rfl
  have control : (carrying bytes (.call id sanitiseExceptions callee) frames history).control
      side = .awaiting := rfl
  rw [step, control]
  simp only [awaitMessage, inbox, notes, current]
  rcases waits with ⟨outer, outerType, next, rest, top⟩ | ⟨rfl, idle⟩
  · have inside : side = .enclave → frames .enclave ≠ [] := by
      rintro rfl
      rw [top]
      exact List.cons_ne_nil _ _
    simp only [top, isCall, if_true, handleCallMessage_starts known filled]
    simp only [working, contextsOf_handling id callType sanitiseExceptions inside]
    simp only [carrying, Connection.setFrames, Connection.setControl, Function.update_idem,
      update_nil, push, top]
  · have contexts : ({ contextsOf frames with enclaveCallContext := true } : Contexts) =
        contextsOf (push (.handling id callType sanitiseExceptions) frames) := by
      simp [contextsOf, push]
    have outside : (contextsOf frames).enclaveCallContext = false := by
      simp [contextsOf, idle]
    simp only [idle, handleInitialMessage, isCall, handleCallMessage_starts known filled]
    simp only [carrying, working, Connection.setFrames, Connection.setControl,
      Connection.setContexts, Function.update_idem, update_nil, outside, contexts, push, idle]
    rfl

theorem finishHandler_replies {side : Side} {callType : CallType side.other} {id : Nat}
    {sanitiseExceptions : Bool} {answer : Answer} {message : SocketCallInterfaceMessage}
    {bytes : Bytes} {frames : Frames} {history : History}
    (replied : reply runtime side callType sanitiseExceptions answer = .ok (message, bytes)) :
    step runtime (@working side (.done answer)
      (push (.handling id callType sanitiseExceptions) frames) history) side =
        some (@carrying side.other bytes (.reply id answer) frames
          (history.send id message)) := by
  have contexts : leaveHandler (frames side)
      (contextsOf (push (.handling id callType sanitiseExceptions) frames)) =
        contextsOf frames := by
    cases side with
    | host => simp [leaveHandler, contextsOf, push, Frame.isCall]
    | enclave =>
        cases top : frames .enclave with
        | nil => simp [leaveHandler, contextsOf, push, top]
        | cons frame rest => simp [leaveHandler, contextsOf, push, top]
  have top : (@working side (.done answer)
      (push (.handling id callType sanitiseExceptions) frames) history).frames side =
        .handling id callType sanitiseExceptions :: frames side :=
    push_same _ frames
  rw [step, working_control]
  simp only [finishHandler, top, replied]
  simp only [working, carrying, Connection.setControl, Connection.setFrames,
    Connection.sendMessage, Connection.setContexts, Function.update_idem, update_awaiting,
    contexts, push_pop]
  rfl

theorem awaitMessage_finishes {side : Side} {callType : CallType side} {id : Nat}
    {next : Answer → CallTree side} {message : SocketCallInterfaceMessage} {bytes : Bytes}
    {note : Note side} {frames : Frames} {history : History}
    (inside : side = .enclave → frames .enclave ≠ [])
    (written : message.toByteArray = some bytes) (notCall : message.messageType ≠ .CALL) :
    step runtime (carrying bytes note (push (.call id callType next) frames) history) side =
      some (working (next (resultOf runtime callType message)) frames
        (history.exit ⟨id, note.asReply, resultOf runtime callType message⟩)) := by
  have inbox : receiveMessage ((carrying bytes note (push (.call id callType next) frames)
      history).inbox side) = .message message [] := by
    simp only [carrying, Function.update_self, receiveMessage_sent written]
  have notes : (carrying bytes note (push (.call id callType next) frames) history).notes side =
      [note] := by
    simp only [carrying, Function.update_self]
  have top : (carrying bytes note (push (.call id callType next) frames) history).frames side =
      .call id callType next :: frames side :=
    push_same _ frames
  have control : (carrying bytes note (push (.call id callType next) frames) history).control
      side = .awaiting := rfl
  rw [step, control]
  simp only [awaitMessage, inbox, notes, top, if_neg notCall]
  simp only [finishCall, carrying, working, Connection.setFrames, Connection.setControl,
    Connection.setContexts, Connection.noteExit, Function.update_idem, update_nil,
    leaveCall_contextsOf id callType next inside, push_pop]
  rfl

/-- Nothing has arrived. -/
theorem awaitMessage_blocked {connection : Connection} {side : Side}
    (control : connection.control side = .awaiting) (empty : connection.inbox side = [])
    (alive : connection.control side.other ≠ .stopped) :
    step runtime connection side = none := by
  rw [step, control]
  simp only [awaitMessage, empty, receiveMessage_nil]

theorem working_only {side : Side} (code : CallTree side) (frames : Frames) (history : History) :
    ∀ other, other ≠ side → step runtime (working code frames history) other = none := by
  intro other different
  refine awaitMessage_blocked (Function.update_of_ne different ..) rfl ?_
  by_cases same : other.other = side
  · subst same
    rw [working_control]
    simp
  · have control : (working code frames history).control other.other = .awaiting :=
      Function.update_of_ne same ..
    rw [control]
    simp

theorem carrying_only {receiver : Side} (bytes : Bytes) (note : Note receiver) (frames : Frames)
    (history : History) : ∀ other, other ≠ receiver →
      step runtime (carrying bytes note frames history) other = none := by
  intro other different
  have empty : (carrying bytes note frames history).inbox other = [] := by
    simp only [carrying, Function.update_of_ne different]
  refine awaitMessage_blocked rfl empty ?_
  simp [carrying]

/-- A reply that is built goes to the caller and means the same there. -/
theorem reply_of_replied {side : Side} {request : Request side} {answer : Answer}
    {callType : CallType side.other.other} (fits : request.Fits)
    (same : callType.toByte = request.callType.toByte)
    (replied : Replied runtime request answer) :
    ∃ message bytes, reply runtime side.other callType request.sanitiseExceptions answer =
        .ok (message, bytes) ∧
      message.toByteArray = some bytes ∧ message.callTypeID = request.callType.toByte ∧
      (message.messageType = .RETURN ∨ message.messageType = .EXCEPTION) ∧
      resultOf runtime request.callType message = receive runtime request answer ∧
      Passed answer (receive runtime request answer) := by
  have known : CallType.fromByte side callType.toByte = some request.callType := by
    rw [same, CallType.fromByte_toByte]
  cases answer with
  | ok returnBuffer =>
      have small : (SocketCallInterfaceMessage.mk .RETURN callType.toByte returnBuffer).size <
          2 ^ 31 := by
        cases returnBuffer with
        | none =>
            rw [SocketCallInterfaceMessage.size_none]
            decide
        | some bytes =>
            rw [SocketCallInterfaceMessage.size_some]
            exact replied
      obtain ⟨bytes, written⟩ := SocketCallInterfaceMessage.exists_toByteArray small
      simp only [receive, if_pos fits]
      refine ⟨_, bytes, ?_, written, same, Or.inl rfl, ?_, rfl⟩
      · simp only [reply, replyMessage, bind, Except.bind, written]
      · simp [resultOf, known]
  | error throwable =>
      obtain ⟨serialised, isSerialised, small⟩ := replied
      rw [← SocketCallInterfaceMessage.size_some .EXCEPTION callType.toByte] at small
      obtain ⟨bytes, written⟩ := SocketCallInterfaceMessage.exists_toByteArray small
      simp only [receive, if_pos fits, received, isSerialised]
      refine ⟨_, bytes, ?_, written, same, Or.inr rfl, ?_, _, rfl⟩
      · simp only [reply, replyMessage, isSerialised, bind, Except.bind, written]
      · simp [resultOf, known]

theorem reply_of_not_replied {side : Side} {request : Request side} {answer : Answer}
    (callType : CallType side.other.other) (unreplied : ¬ Replied runtime request answer) :
    ∃ exception, reply runtime side.other callType request.sanitiseExceptions answer =
      .error exception := by
  cases answer with
  | ok returnBuffer =>
      cases returnBuffer with
      | none => exact absurd trivial unreplied
      | some bytes =>
          have tooLarge : ¬ (SocketCallInterfaceMessage.mk .RETURN callType.toByte
              (some bytes)).size < 2 ^ 31 := by
            rw [SocketCallInterfaceMessage.size_some]
            exact unreplied
          have unwritten := SocketCallInterfaceMessage.toByteArray_eq_none tooLarge
          refine ⟨.illegalArgument, ?_⟩
          simp only [reply, replyMessage, bind, Except.bind, unwritten]
  | error throwable =>
      cases serialised : ThrowableSerialisation.serialise
          (maybeSanitised runtime side.other request.sanitiseExceptions throwable) with
      | error error =>
          refine ⟨.serialisation error, ?_⟩
          simp only [reply, replyMessage, serialised, bind, Except.bind]
      | ok bytes =>
          have tooLarge : ¬ (SocketCallInterfaceMessage.mk .EXCEPTION callType.toByte
              (some bytes)).size < 2 ^ 31 := by
            rw [SocketCallInterfaceMessage.size_some]
            exact fun small => unreplied ⟨bytes, serialised, small⟩
          have unwritten := SocketCallInterfaceMessage.toByteArray_eq_none tooLarge
          refine ⟨.illegalArgument, ?_⟩
          simp only [reply, replyMessage, serialised, bind, Except.bind, unwritten]

/-! ## What is accounted for -/

def Frame.handled {side : Side} : Frame side → Option CallId
  | .call _ _ _ => none
  | .handling id callType _ => some ⟨id, callType.toByte⟩

def Frame.called {side : Side} : Frame side → Option Nat
  | .call id _ _ => some id
  | .handling _ _ _ => none

def collect {β : Type} (field : ∀ {side : Side}, Frame side → Option β) (frames : Frames) :
    List β :=
  (frames .host).filterMap field ++ (frames .enclave).filterMap field

section Collect

variable {β : Type} {field : ∀ {side : Side}, Frame side → Option β}

theorem collect_push_some {side : Side} {frame : Frame side} {value : β} (frames : Frames)
    (has : field frame = some value) :
    (collect field (push frame frames)).Perm (value :: collect field frames) := by
  cases side with
  | host => simp [collect, push, has]
  | enclave =>
      simp only [collect, push, Function.update_self, ne_eq, reduceCtorEq, not_false_eq_true,
        Function.update_of_ne, List.filterMap_cons_some has]
      exact List.perm_middle

theorem collect_push_none {side : Side} {frame : Frame side} (frames : Frames)
    (hasNone : field frame = none) :
    collect field (push frame frames) = collect field frames := by
  cases side with
  | host => simp [collect, push, hasNone]
  | enclave => simp [collect, push, hasNone]

end Collect

/-- The calls that were made are being handled or answered, and those who made them wait or have
gone on. -/
structure Sound (frames : Frames) (history : History) : Prop where
  numbered : history.calls.map CallId.id = List.range history.calls.length
  answered : history.calls.Perm (collect Frame.handled frames ++ history.replies)
  ended : (history.calls.map CallId.id).Perm
    (collect Frame.called frames ++ history.exits.map Exit.id)
  exits : ∀ exit ∈ history.exits, exit.Correct

@[simp] theorem calls_send_call (id : Nat) (message : SocketCallInterfaceMessage)
    (history : History) (isCall : message.messageType = .CALL) :
    (history.send id message).calls = history.calls ++ [⟨id, message.callTypeID⟩] := by
  simp [History.calls, History.send, isCall]

@[simp] theorem replies_send_call (id : Nat) (message : SocketCallInterfaceMessage)
    (history : History) (isCall : message.messageType = .CALL) :
    (history.send id message).replies = history.replies := by
  simp [History.replies, History.send, isCall]

theorem calls_send_reply (id : Nat) {message : SocketCallInterfaceMessage} (history : History)
    (isReply : message.messageType = .RETURN ∨ message.messageType = .EXCEPTION) :
    (history.send id message).calls = history.calls := by
  have notCall : message.messageType ≠ .CALL := by
    rcases isReply with type | type <;> simp [type]
  simp [History.calls, History.send, notCall]

theorem replies_send_reply (id : Nat) {message : SocketCallInterfaceMessage} (history : History)
    (isReply : message.messageType = .RETURN ∨ message.messageType = .EXCEPTION) :
    (history.send id message).replies = history.replies ++ [⟨id, message.callTypeID⟩] := by
  simp [History.replies, History.send, isReply]

theorem Sound.call {side : Side} {request : Request side} {callType : CallType side.other.other}
    (next : Answer → CallTree side) {frames : Frames} {history : History}
    (sound : Sound frames history) (same : callType.toByte = request.callType.toByte) :
    Sound (push (@Frame.handling side.other history.calls.length callType
          request.sanitiseExceptions)
        (push (.call history.calls.length request.callType next) frames))
      (history.send history.calls.length (callMessage request)) := by
  constructor
  · rw [calls_send_call _ _ _ rfl, List.map_append, sound.numbered, List.length_append,
      List.length_singleton, List.range_succ]
    rfl
  · rw [calls_send_call _ _ _ rfl, replies_send_call _ _ _ rfl]
    have pushed := collect_push_some
      (push (.call history.calls.length request.callType next) frames)
      (show (@Frame.handling side.other history.calls.length callType
        request.sanitiseExceptions).handled = some ⟨_, _⟩ from rfl)
    rw [collect_push_none frames rfl] at pushed
    rw [same] at pushed
    refine (List.perm_append_singleton _ _).trans ?_
    exact (sound.answered.cons _).trans (pushed.symm.append_right _)
  · rw [calls_send_call _ _ _ rfl, List.map_append, collect_push_none _ rfl]
    have pushed := collect_push_some frames
      (show (Frame.call history.calls.length request.callType next).called = some _ from rfl)
    refine (List.perm_append_singleton _ _).trans ?_
    exact (sound.ended.cons _).trans (pushed.symm.append_right _)
  · exact sound.exits

theorem Sound.finish {side : Side} {id : Nat} {callType : CallType side}
    {incoming : CallType side.other.other} {sanitiseExceptions : Bool}
    {next : Answer → CallTree side} {frames : Frames} {history : History} {answer result : Answer}
    {message : SocketCallInterfaceMessage}
    (sound : Sound (push (@Frame.handling side.other id incoming sanitiseExceptions)
      (push (.call id callType next) frames)) history)
    (isReply : message.messageType = .RETURN ∨ message.messageType = .EXCEPTION)
    (same : message.callTypeID = incoming.toByte) (passed : Passed answer result) :
    Sound frames ((history.send id message).exit ⟨id, some (id, answer), result⟩) := by
  have calls : ((history.send id message).exit ⟨id, some (id, answer), result⟩).calls =
      history.calls := calls_send_reply id history isReply
  have replies : ((history.send id message).exit ⟨id, some (id, answer), result⟩).replies =
      history.replies ++ [⟨id, message.callTypeID⟩] := replies_send_reply id history isReply
  constructor
  · rw [calls]
    exact sound.numbered
  · rw [calls, replies, same]
    have pushed := collect_push_some (push (.call id callType next) frames)
      (show (@Frame.handling side.other id incoming sanitiseExceptions).handled =
        some ⟨_, _⟩ from rfl)
    rw [collect_push_none frames rfl] at pushed
    refine (sound.answered.trans (pushed.append_right _)).trans ?_
    rw [← List.append_assoc]
    exact (List.perm_append_singleton _ _).symm
  · rw [calls]
    have pushed := collect_push_some frames
      (show (Frame.call id callType next).called = some id from rfl)
    have ended := sound.ended
    rw [collect_push_none _ rfl] at ended
    refine (ended.trans (pushed.append_right _)).trans ?_
    have noted : ((history.send id message).exit ⟨id, some (id, answer), result⟩).exits.map
        Exit.id = history.exits.map Exit.id ++ [id] := by
      simp [History.exit, History.send]
    rw [noted, ← List.append_assoc]
    exact (List.perm_append_singleton _ _).symm
  · intro exit isIn
    rcases List.mem_append.mp isIn with earlier | last
    · exact sound.exits exit earlier
    · rw [List.mem_singleton.mp last]
      exact ⟨answer, rfl, passed⟩

/-- Where the code of a side makes calls: the other side waits for it, and the host has begun. -/
structure Ready (side : Side) (frames : Frames) : Prop where
  waits : Waits side.other frames
  inside : side = .enclave → frames .enclave ≠ []
  outside : frames .host = [] → frames .enclave = []

theorem Ready.call {side : Side} {frames : Frames} (ready : Ready side frames) (id : Nat)
    (callType : CallType side) (next : Answer → CallTree side)
    (incoming : CallType side.other.other) (sanitiseExceptions : Bool) :
    (push (.call id callType next) frames) .host ≠ [] ∧
      Waits side.other (push (.call id callType next) frames) ∧
      Ready side.other (push (@Frame.handling side.other id incoming sanitiseExceptions)
        (push (.call id callType next) frames)) := by
  cases side with
  | host =>
      refine ⟨?_, ?_, ?_, ?_, ?_⟩
      · simp
      · rcases ready.waits with ⟨id, callType, next, rest, top⟩ | ⟨-, idle⟩
        · exact Or.inl ⟨id, callType, next, rest, top⟩
        · exact Or.inr ⟨rfl, idle⟩
      · exact Or.inl ⟨id, callType, next, _, rfl⟩
      · intro _
        simp [push, Side.other]
      · simp [push, Side.other]
  | enclave =>
      have host : frames .host ≠ [] := fun none => ready.inside rfl (ready.outside none)
      refine ⟨?_, ?_, ?_, ?_, ?_⟩
      · simpa [push] using host
      · rcases ready.waits with ⟨id, callType, next, rest, top⟩ | ⟨impossible, -⟩
        · exact Or.inl ⟨id, callType, next, rest, top⟩
        · cases impossible
      · exact Or.inl ⟨id, callType, next, _, rfl⟩
      · intro impossible
        cases impossible
      · simp [push, Side.other]

theorem filter_key_eq_singleton {α : Type} {key : α → Nat} {values : List α} {value : α}
    (distinct : (values.map key).Nodup) (member : value ∈ values) :
    values.filter (fun other => key other = key value) = [value] := by
  induction values with
  | nil => cases member
  | cons first rest ih =>
      rw [List.map_cons, List.nodup_cons] at distinct
      obtain ⟨fresh, distinct⟩ := distinct
      rcases List.mem_cons.mp member with rfl | later
      · have others : rest.filter (fun other => key other = key value) = [] := by
          rw [List.filter_eq_nil_iff]
          intro other isIn same
          exact fresh (List.mem_map.mpr ⟨other, isIn, of_decide_eq_true same⟩)
        rw [List.filter_cons_of_pos (by simp), others]
      · have different : key first ≠ key value := by
          intro same
          exact fresh (same ▸ List.mem_map_of_mem later)
        rw [List.filter_cons_of_neg (by simp [different]), ih distinct later]

/-- Where the host's code is outside of calls, nothing is left of them. -/
def OutsideSettled (connection : Connection) : Prop :=
  connection.frames .host = [] → connection.Settled

theorem Sound.nodup {frames : Frames} {history : History} (sound : Sound frames history) :
    (history.calls.map CallId.id).Nodup := by
  rw [sound.numbered]
  exact List.nodup_range

theorem working_outsideSettled {side : Side} (code : CallTree side) {frames : Frames}
    {history : History} (ready : Ready side frames) (sound : Sound frames history) :
    OutsideSettled (working code frames history) := by
  intro noHost
  replace noHost : frames .host = [] := noHost
  have noEnclave := ready.outside noHost
  have isHost : side = .host := by
    cases side with
    | host => rfl
    | enclave => exact absurd noEnclave (ready.inside rfl)
  subst isHost
  have nothing {β : Type} (field : ∀ {side : Side}, Frame side → Option β) :
      collect field frames = [] := by
    rw [collect, noHost, noEnclave]
    rfl
  have answered := sound.answered
  have ended := sound.ended
  rw [nothing, List.nil_append] at answered ended
  constructor
  · intro call isCall
    have same := filter_key_eq_singleton sound.nodup isCall
    refine List.perm_singleton.mp ?_
    rw [← same]
    exact (answered.filter _).symm
  · exact ended.symm
  · exact sound.exits
  · intro side
    rfl
  · rfl
  · exact noEnclave
  · simp [working, contextsOf, noHost, noEnclave]

theorem carrying_outsideSettled {receiver : Side} (bytes : Bytes) (note : Note receiver)
    {frames : Frames} (history : History) (busy : frames .host ≠ []) :
    OutsideSettled (carrying bytes note frames history) :=
  fun none => absurd none busy

/-! ## Trees of calls -/

theorem fromByte_known {side : Side} (callType : CallType side) :
    ∃ incoming : CallType side.other.other,
      CallType.fromByte side.other.other callType.toByte = some incoming ∧
        incoming.toByte = callType.toByte := by
  cases side with
  | host => exact ⟨callType, CallType.fromByte_toByte callType, rfl⟩
  | enclave => exact ⟨callType, CallType.fromByte_toByte callType, rfl⟩

theorem carrying_back {side : Side} (bytes : Bytes) (id : Nat) (answer : Answer) (frames : Frames)
    (history : History) :
    @carrying side.other.other bytes (.reply id answer) frames history =
      @carrying side bytes (.reply id answer) frames history := by
  cases side <;> rfl

/-- The frames in which the handler of a call runs. -/
def inCall {side : Side} (request : Request side) (next : Answer → CallTree side)
    (incoming : CallType side.other.other) (id : Nat) (frames : Frames) : Frames :=
  push (@Frame.handling side.other id incoming request.sanitiseExceptions)
    (push (.call id request.callType next) frames)

theorem enters_path {side : Side} {request : Request side} (callee : CallTree side.other)
    (next : Answer → CallTree side) {frames : Frames} {history : History}
    (ready : Ready side frames) (sound : Sound frames history) (fits : request.Fits) :
    ∃ incoming : CallType side.other.other, incoming.toByte = request.callType.toByte ∧
      Ready side.other (inCall request next incoming history.calls.length frames) ∧
      Sound (inCall request next incoming history.calls.length frames)
        (history.send history.calls.length (callMessage request)) ∧
      OnlyPath (step runtime) OutsideSettled (working (.call request callee next) frames history)
        (working callee (inCall request next incoming history.calls.length frames)
          (history.send history.calls.length (callMessage request))) := by
  obtain ⟨incoming, known, same⟩ := fromByte_known request.callType
  have small : (callMessage request).size < 2 ^ 31 := by
    rw [callMessage, SocketCallInterfaceMessage.size_some]
    exact fits
  obtain ⟨bytes, written⟩ := SocketCallInterfaceMessage.exists_toByteArray small
  obtain ⟨busy, waits, ready'⟩ := ready.call history.calls.length request.callType next incoming
    request.sanitiseExceptions
  have sound' := sound.call next same
  refine ⟨incoming, same, ready', sound', ?_⟩
  refine .next (working_outsideSettled _ ready sound)
    (executeOutgoingCall_sends ready.inside written) (working_only _ _ _) ?_
  refine .next (carrying_outsideSettled _ _ _ busy)
    (awaitMessage_handles waits written rfl known rfl) (carrying_only _ _ _ _) ?_
  exact .refl (working_outsideSettled _ ready' sound')

theorem replies_path {side : Side} {request : Request side} {next : Answer → CallTree side}
    {incoming : CallType side.other.other} {id : Nat} {frames : Frames} {history : History}
    {answer : Answer} (ready : Ready side frames)
    (ready' : Ready side.other (inCall request next incoming id frames))
    (sound : Sound (inCall request next incoming id frames) history) (fits : request.Fits)
    (same : incoming.toByte = request.callType.toByte)
    (replied : Replied runtime request answer) :
    ∃ history', Sound frames history' ∧
      OnlyPath (step runtime) OutsideSettled
        (working (.done answer : CallTree side.other) (inCall request next incoming id frames)
          history)
        (working (next (receive runtime request answer)) frames history') := by
  obtain ⟨message, bytes, built, written, callTypeID, isReply, result, passed⟩ :=
    reply_of_replied fits same replied
  have busy := (ready.call id request.callType next incoming request.sanitiseExceptions).1
  have notCall : message.messageType ≠ .CALL := by
    rcases isReply with type | type <;> simp [type]
  have finished := sound.finish isReply (callTypeID.trans same.symm) passed
  refine ⟨_, finished, ?_⟩
  refine .next (working_outsideSettled _ ready' sound) (finishHandler_replies built)
    (working_only _ _ _) ?_
  rw [carrying_back]
  refine .next (carrying_outsideSettled _ _ _ busy)
    (awaitMessage_finishes ready.inside written notCall) (carrying_only _ _ _ _) ?_
  rw [result]
  exact .refl (working_outsideSettled _ ready finished)

theorem refused_path {side : Side} {request : Request side} (callee : CallTree side.other)
    (next : Answer → CallTree side) {frames : Frames} {history : History} (answer : Answer)
    (ready : Ready side frames) (sound : Sound frames history) (tooLarge : ¬ request.Fits) :
    OnlyPath (step runtime) OutsideSettled (working (.call request callee next) frames history)
      (working (next (receive runtime request answer)) frames history) := by
  have refused : receive runtime request answer = .error (runtime.throwable .illegalArgument) :=
    if_neg tooLarge
  have unwritten : (callMessage request).toByteArray = none := by
    refine SocketCallInterfaceMessage.toByteArray_eq_none ?_
    rw [callMessage, SocketCallInterfaceMessage.size_some]
    exact tooLarge
  rw [refused]
  refine .next (working_outsideSettled _ ready sound)
    (executeOutgoingCall_tooLarge ready.inside unwritten) (working_only _ _ _) ?_
  exact .refl (working_outsideSettled _ ready sound)

theorem runs_of_throughout {side : Side} (code : CallTree side) {frames : Frames}
    {history : History} (ready : Ready side frames) (sound : Sound frames history)
    (replied : code.Throughout (receive runtime) Request.Fits (Replied runtime)) :
    ∃ history', Sound frames history' ∧
      OnlyPath (step runtime) OutsideSettled (working code frames history)
        (working (.done (code.answer (receive runtime)) : CallTree side) frames history') := by
  induction code generalizing frames history with
  | done answer =>
      exact ⟨history, sound, .refl (working_outsideSettled _ ready sound)⟩
  | @call side request callee next calleeRuns nextRuns =>
      rw [Behaviour.Throughout] at replied
      rw [Behaviour.answer]
      obtain ⟨calleeReplied, nextReplied⟩ := replied
      by_cases fits : request.Fits
      · obtain ⟨calleeReplied, replied⟩ := calleeReplied fits
        obtain ⟨incoming, same, ready', sound', enters⟩ :=
          enters_path callee next ready sound fits
        obtain ⟨history₁, sound₁, handles⟩ := calleeRuns ready' sound' calleeReplied
        obtain ⟨history₂, sound₂, replies⟩ := replies_path ready ready' sound₁ fits same replied
        obtain ⟨history₃, sound₃, continues⟩ := nextRuns _ ready sound₂ nextReplied
        exact ⟨history₃, sound₃, ((enters.trans handles).trans replies).trans continues⟩
      · obtain ⟨history', sound', continues⟩ := nextRuns _ ready sound nextReplied
        exact ⟨history', sound', (refused_path callee next _ ready sound fits).trans continues⟩

end Steps

end Conclave.Calls.Socket
