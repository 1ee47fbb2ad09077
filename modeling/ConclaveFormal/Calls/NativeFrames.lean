import ConclaveFormal.Calls.CallInterface
import ConclaveFormal.Lib.Attempt
import Mathlib.Logic.Function.Basic

/-!
# Frames of native calls

A native call pushes a frame on a stack of its thread.  The other side's reply finds the
frame on top of that stack, and the frame is popped when the call comes back.
-/

set_option autoImplicit false

namespace Conclave.Calls.Native

open Conclave.Lib Conclave.Common

/-! ## The thread -/

structure StackFrame (side : Side) where
  object : Nat
  callType : CallType side
  returnBuffer : Option Bytes
  exceptionBuffer : Option Bytes
  deriving DecidableEq

/-- The stacks of both sides, the last frame first. -/
abbrev Frames : Type := (side : Side) → List (StackFrame side)

/-- What `sendECall` or `jvmOCall` does with a message.  What the other side throws while it
handles a message leaves the transition as an exception. -/
inductive Transition where
  | ok
  | throwsBefore
  | throwsAfter
  deriving DecidableEq, Repr

/-- A call, the behaviour of the transitions of its messages, and whether the enclave
sanitises exceptions when it replies. -/
structure Request (side : Side) where
  callType : CallType side
  parameterBuffer : Bytes
  call : Transition
  return_ : Transition
  exception : Transition
  sanitiseExceptions : Bool

/-- For the specification only: the end of an `executeOutgoingCall`, with what its handler did. -/
structure Exit where
  side : Side
  request : Request side
  before : Frames
  after : Frames
  handled : Option Answer
  result : Answer

/-- Objects are numbered.  The last two fields are for the specification only: what the last
handler did and the ends of all calls. -/
structure Thread where
  frames : Frames
  objects : Nat
  handled : Option Answer
  exits : List Exit

abbrev Method (α : Type) : Type := Attempt Thread Throwable α

section Interface

variable (runtime : Runtime)

def throwException {α : Type} (exception : InterfaceException) : Method α :=
  Attempt.throw (runtime.throwable exception)

def check (condition : Bool) (message : String) : Method Unit :=
  if condition then pure () else throwException runtime (.illegalState message)

def currentThread : Method Thread := Attempt.get

/-! ## The stack -/

def setFrames (side : Side) (frames : List (StackFrame side)) (thread : Thread) : Thread :=
  { thread with frames := Function.update thread.frames side frames }

def addLast {side : Side} (callType : CallType side) : Method (StackFrame side) := fun thread =>
  let frame : StackFrame side := ⟨thread.objects, callType, none, none⟩
  (.ok frame,
    { setFrames side (frame :: thread.frames side) thread with objects := thread.objects + 1 })

def last (side : Side) : Method (StackFrame side) := do
  let thread ← currentThread
  match thread.frames side with
  | [] => throwException runtime .noSuchElement
  | frame :: _ => pure frame

def removeLast (side : Side) : Method (StackFrame side) := fun thread =>
  match thread.frames side with
  | [] => (.error (runtime.throwable .noSuchElement), thread)
  | frame :: rest => (.ok frame, setFrames side rest thread)

def updateLast (side : Side) (change : StackFrame side → StackFrame side) : Method Unit :=
  Attempt.modify fun thread =>
    match thread.frames side with
    | [] => thread
    | frame :: rest => setFrames side (change frame :: rest) thread

/-! ## Replies -/

def checkCallType {side : Side} (callType : CallType side) : Method Unit := do
  let frame ← last runtime side
  check runtime (callType = frame.callType) "Call type mismatch"

def fromByte (side : Side) (callTypeID : UInt8) : Method (CallType side) :=
  match CallType.fromByte side callTypeID with
  | some callType => pure callType
  | none => throwException runtime .illegalArgument

/-- `handleReturnOCall` and `handleReturnECall`. -/
def handleReturn (side : Side) (callTypeID : UInt8) (returnBuffer : Bytes) : Method Unit := do
  let callType ← fromByte runtime side callTypeID
  checkCallType runtime callType
  updateLast side fun frame => { frame with returnBuffer := some returnBuffer }

/-- `handleExceptionOCall` and `handleExceptionECall`. -/
def handleException (side : Side) (callTypeID : UInt8) (exceptionBuffer : Bytes) :
    Method Unit := do
  let callType ← fromByte runtime side callTypeID
  checkCallType runtime callType
  updateLast side fun frame => { frame with exceptionBuffer := some exceptionBuffer }

def transition (behaviour : Transition) (deliver : Method Unit) : Method Unit :=
  match behaviour with
  | .ok => deliver
  | .throwsBefore => throwException runtime .transition
  | .throwsAfter => do
      deliver
      throwException runtime .transition

/-! ## Calls -/

/-- The handler runs, and what it does is noted. -/
def handleIncomingCall (callee : Thread → Answer × Thread) : Method (Option Bytes) :=
  fun thread =>
    let (answer, thread) := callee thread
    (answer, { thread with handled := some answer })

/-- The reply to a call that `side` has made, if its handler throws. -/
def sendException {side : Side} (request : Request side) (throwable : Throwable) : Method Unit :=
  match ThrowableSerialisation.serialise
      (maybeSanitised runtime side.other request.sanitiseExceptions throwable) with
  | .error error => throwException runtime (.serialisation error)
  | .ok serializedException =>
      transition runtime request.exception
        (handleException runtime side request.callType.toByte serializedException)

/-- The reply if its handler returns. -/
def sendReturn {side : Side} (request : Request side) (returnBuffer : Option Bytes) :
    Method Unit :=
  match returnBuffer with
  | some returnBuffer =>
      transition runtime request.return_
        (handleReturn runtime side request.callType.toByte returnBuffer)
  | none => pure ()

/-- `handleCallOCall` and `handleCallECall`, for a call that `side` has made. -/
def handleCall {side : Side} (request : Request side) (callee : Thread → Answer × Thread) :
    Method Unit :=
  Attempt.handle (do
      let returnBuffer ← handleIncomingCall callee
      sendReturn runtime request returnBuffer)
    (sendException runtime request)

def wrongStackFrame : Side → String
  | .host => "Wrong stack frame popped during enclave call, something isn't right!"
  | .enclave => "Wrong stack frame popped during host call, something isn't right!"

def executeOutgoingCall {side : Side} (request : Request side)
    (callee : Thread → Answer × Thread) : Method (Option Bytes) := do
  let stackFrame ← addLast request.callType
  transition runtime request.call (handleCall runtime request callee)
  let popped ← removeLast runtime side
  check runtime (popped.object = stackFrame.object) (wrongStackFrame side)
  match popped.exceptionBuffer with
  | some exceptionBuffer => Attempt.throw (runtime.deserialise exceptionBuffer)
  | none => pure popped.returnBuffer

/-! ## The two interfaces -/

namespace NativeHostEnclaveInterface

def handleReturnOCall : UInt8 → Bytes → Method Unit := handleReturn runtime .host

def handleExceptionOCall : UInt8 → Bytes → Method Unit := handleException runtime .host

def handleCallOCall (request : Request .enclave) : (Thread → Answer × Thread) → Method Unit :=
  handleCall runtime request

def executeOutgoingCall (request : Request .host) :
    (Thread → Answer × Thread) → Method (Option Bytes) :=
  Native.executeOutgoingCall runtime request

end NativeHostEnclaveInterface

namespace NativeEnclaveHostInterface

def handleReturnECall : UInt8 → Bytes → Method Unit := handleReturn runtime .enclave

def handleExceptionECall : UInt8 → Bytes → Method Unit := handleException runtime .enclave

def handleCallECall (request : Request .host) : (Thread → Answer × Thread) → Method Unit :=
  handleCall runtime request

def executeOutgoingCall (request : Request .enclave) :
    (Thread → Answer × Thread) → Method (Option Bytes) :=
  Native.executeOutgoingCall runtime request

end NativeEnclaveHostInterface

/-- The interface of the side that calls. -/
def outgoingCall {side : Side} (request : Request side) (callee : Thread → Answer × Thread) :
    Method (Option Bytes) :=
  match side, request with
  | .host, request => NativeHostEnclaveInterface.executeOutgoingCall runtime request callee
  | .enclave, request => NativeEnclaveHostInterface.executeOutgoingCall runtime request callee

/-- A call, noted at its end. -/
def performCall {side : Side} (request : Request side) (callee : Thread → Answer × Thread)
    (thread : Thread) : Answer × Thread :=
  let (result, after) := outgoingCall runtime request callee { thread with handled := none }
  (result, { after with
    exits := after.exits ++
      [⟨side, request, thread.frames, after.frames, after.handled, result⟩] })

/-! ## What calls should come to -/

/-- What the caller gets of an exception of the handler. -/
def received {side : Side} (request : Request side) (throwable : Throwable) : Answer :=
  match ThrowableSerialisation.serialise
      (maybeSanitised runtime side.other request.sanitiseExceptions throwable) with
  | .error error => .error (runtime.throwable (.serialisation error))
  | .ok serializedException => .error (runtime.deserialise serializedException)

/-- If the bytes that were returned do not reach the caller, then the handler throws instead. -/
def receive {side : Side} (request : Request side) : Answer → Answer
  | .ok none => .ok none
  | .ok (some returnBuffer) =>
      if request.return_ = .ok then .ok (some returnBuffer)
      else received runtime request (runtime.throwable .transition)
  | .error throwable => received runtime request throwable

def ExceptionSent {side : Side} (request : Request side) (throwable : Throwable) : Prop :=
  request.exception = .ok ∧ ∃ serializedException, ThrowableSerialisation.serialise
    (maybeSanitised runtime side.other request.sanitiseExceptions throwable) =
      .ok serializedException

def Replied {side : Side} (request : Request side) : Answer → Prop
  | .ok none => True
  | .ok (some _) =>
      request.return_ = .ok ∨ ExceptionSent runtime request (runtime.throwable .transition)
  | .error throwable => ExceptionSent runtime request throwable

/-- The message of the call gets through and so does a reply, if there is one. -/
def Undisturbed {side : Side} (request : Request side) (answer : Answer) : Prop :=
  request.call = .ok ∧ Replied runtime request answer

/-- What the caller should get. -/
def delivered {side : Side} (request : Request side) : Answer → Answer
  | .ok returnBuffer => .ok returnBuffer
  | .error throwable => received runtime request throwable

/-- The message of the call gets through and so does what the handler did. -/
def Delivered {side : Side} (request : Request side) : Answer → Prop
  | .ok none => request.call = .ok
  | .ok (some _) => request.call = .ok ∧ request.return_ = .ok
  | .error throwable => request.call = .ok ∧ ExceptionSent runtime request throwable

/-- The call ended with the frames it began with. -/
def Exit.Restored (exit : Exit) : Prop :=
  exit.after = exit.before

/-- The call also ended with the result of its handler. -/
structure Exit.Correct (exit : Exit) : Prop where
  restored : exit.Restored
  result : ∃ answer, exit.handled = some answer ∧
    exit.result = delivered runtime exit.request answer

/-! ## Replies find their frame -/

variable {runtime}

theorem setFrames_frames (side : Side) (frames : List (StackFrame side)) (thread : Thread) :
    (setFrames side frames thread).frames side = frames := by
  simp only [setFrames, Function.update_self]

theorem setFrames_self {side : Side} {frames : List (StackFrame side)} {thread : Thread}
    (same : thread.frames side = frames) : setFrames side frames thread = thread := by
  rw [setFrames, ← same, Function.update_eq_self]

theorem setFrames_setFrames (side : Side) (first second : List (StackFrame side))
    (thread : Thread) :
    setFrames side second (setFrames side first thread) = setFrames side second thread := by
  simp only [setFrames, Function.update_idem]

theorem checkCallType_top {side : Side} {thread : Thread} {frame : StackFrame side}
    {rest : List (StackFrame side)} {callType : CallType side}
    (top : thread.frames side = frame :: rest) (same : callType = frame.callType) :
    checkCallType runtime callType thread = (.ok (), thread) := by
  have found : last runtime side thread = (.ok frame, thread) := by
    simp only [last, currentThread, Attempt.get_bind, top, Attempt.pure_apply]
  rw [checkCallType, Attempt.bind_ok found, check, if_pos (decide_eq_true same)]
  rfl

variable (runtime) in
theorem handleReturn_top {side : Side} {thread : Thread} {frame : StackFrame side}
    {rest : List (StackFrame side)} {callType : CallType side}
    (top : thread.frames side = frame :: rest) (same : callType = frame.callType)
    (returnBuffer : Bytes) :
    handleReturn runtime side callType.toByte returnBuffer thread =
      (.ok (), setFrames side ({ frame with returnBuffer := some returnBuffer } :: rest)
        thread) := by
  simp only [handleReturn, fromByte, CallType.fromByte_toByte, Attempt.pure_bind_apply]
  rw [Attempt.bind_ok (checkCallType_top top same)]
  simp only [updateLast, Attempt.modify_apply, top]

variable (runtime) in
theorem handleException_top {side : Side} {thread : Thread} {frame : StackFrame side}
    {rest : List (StackFrame side)} {callType : CallType side}
    (top : thread.frames side = frame :: rest) (same : callType = frame.callType)
    (exceptionBuffer : Bytes) :
    handleException runtime side callType.toByte exceptionBuffer thread =
      (.ok (), setFrames side ({ frame with exceptionBuffer := some exceptionBuffer } :: rest)
        thread) := by
  simp only [handleException, fromByte, CallType.fromByte_toByte, Attempt.pure_bind_apply]
  rw [Attempt.bind_ok (checkCallType_top top same)]
  simp only [updateLast, Attempt.modify_apply, top]

/-- What a frame holds when its call comes back. -/
def StackFrame.result {side : Side} (frame : StackFrame side) (runtime : Runtime) : Answer :=
  match frame.exceptionBuffer with
  | some exceptionBuffer => .error (runtime.deserialise exceptionBuffer)
  | none => .ok frame.returnBuffer

/-- A reply left the frame on top, perhaps with its buffers filled, and got through exactly if
`sent` holds; then the frame holds `answer`. -/
def Reaches {side : Side} (runtime : Runtime) (frame : StackFrame side)
    (rest : List (StackFrame side)) (sent : Prop) (answer : Answer)
    (ended : Except Throwable Unit × Thread) (thread : Thread) : Prop :=
  ∃ frame' : StackFrame side, ended.2 = setFrames side (frame' :: rest) thread ∧
    frame'.object = frame.object ∧
    (sent → ended.1 = .ok () ∧ frame'.result runtime = answer) ∧
    (¬ sent → ∃ throwable, ended.1 = .error throwable)

theorem sendException_reaches {side : Side} {request : Request side} {thread : Thread}
    {frame : StackFrame side} {rest : List (StackFrame side)}
    (top : thread.frames side = frame :: rest) (same : request.callType = frame.callType)
    (throwable : Throwable) :
    Reaches runtime frame rest (ExceptionSent runtime request throwable)
      (received runtime request throwable) (sendException runtime request throwable thread)
      thread := by
  rw [sendException, received, ExceptionSent]
  cases serialised : ThrowableSerialisation.serialise
      (maybeSanitised runtime side.other request.sanitiseExceptions throwable) with
  | error error =>
      refine ⟨frame, (setFrames_self top).symm, rfl, ?_, fun _ => ⟨_, rfl⟩⟩
      rintro ⟨-, bytes, impossible⟩
      cases impossible
  | ok bytes =>
      have handled := handleException_top runtime top same bytes
      cases behaviour : request.exception with
      | ok =>
          refine ⟨{ frame with exceptionBuffer := some bytes }, ?_, rfl, fun _ => ?_, ?_⟩
          · simp only [transition, handled]
          · simp only [transition, handled, StackFrame.result, and_self]
          · intro unsent
            exact absurd ⟨rfl, bytes, rfl⟩ unsent
      | throwsBefore =>
          refine ⟨frame, (setFrames_self top).symm, rfl, ?_, fun _ => ⟨_, rfl⟩⟩
          rintro ⟨impossible, -⟩
          cases impossible
      | throwsAfter =>
          refine ⟨{ frame with exceptionBuffer := some bytes }, ?_, rfl, ?_, fun _ => ?_⟩
          · simp only [transition, Attempt.bind_ok handled]
            rfl
          · rintro ⟨impossible, -⟩
            cases impossible
          · simp only [transition, Attempt.bind_ok handled]
            exact ⟨_, rfl⟩

/-- The handler's end, noted. -/
def noted (answer : Answer) (thread : Thread) : Thread :=
  { thread with handled := some answer }

theorem handleCall_reaches {side : Side} {request : Request side}
    {callee : Thread → Answer × Thread} {thread after : Thread} {answer : Answer}
    {object : Nat} {rest : List (StackFrame side)} (ran : callee thread = (answer, after))
    (top : after.frames side = ⟨object, request.callType, none, none⟩ :: rest) :
    Reaches runtime ⟨object, request.callType, none, none⟩ rest
      (Replied runtime request answer) (receive runtime request answer)
      (handleCall runtime request callee thread) (noted answer after) := by
  have handled : handleIncomingCall callee thread = (answer, noted answer after) := by
    simp only [handleIncomingCall, ran, noted]
  replace top : (noted answer after).frames side = _ := top
  cases answer with
  | error throwable =>
      rw [handleCall, Attempt.handle_error (Attempt.bind_error handled)]
      exact sendException_reaches top rfl throwable
  | ok returnBuffer =>
      cases returnBuffer with
      | none =>
          have silent : (handleIncomingCall callee >>= sendReturn runtime request) thread =
              (.ok (), noted (.ok none) after) := Attempt.bind_ok handled
          rw [handleCall, Attempt.handle_ok silent]
          refine ⟨_, (setFrames_self top).symm, rfl, fun _ => ⟨rfl, rfl⟩, ?_⟩
          intro unsent
          exact absurd trivial unsent
      | some bytes =>
          have returned := handleReturn_top runtime top rfl bytes
          have sends : (handleIncomingCall callee >>= sendReturn runtime request) thread =
              sendReturn runtime request (some bytes) (noted (.ok (some bytes)) after) :=
            Attempt.bind_ok handled
          rw [Replied, receive]
          cases behaviour : request.return_ with
          | ok =>
              simp only [sendReturn, behaviour, transition, returned] at sends
              rw [handleCall, Attempt.handle_ok sends, if_pos rfl]
              refine ⟨_, rfl, rfl, fun _ => ⟨rfl, rfl⟩, ?_⟩
              intro unsent
              exact absurd (Or.inl rfl) unsent
          | throwsBefore =>
              simp only [sendReturn, behaviour, transition] at sends
              rw [handleCall, Attempt.handle_error sends, if_neg (by simp)]
              simp only [reduceCtorEq, false_or]
              exact sendException_reaches top rfl _
          | throwsAfter =>
              simp only [sendReturn, behaviour, transition, Attempt.bind_ok returned] at sends
              rw [handleCall, Attempt.handle_error sends, if_neg (by simp)]
              simp only [reduceCtorEq, false_or]
              have filled := setFrames_frames side
                (⟨object, request.callType, some bytes, none⟩ :: rest)
                (noted (.ok (some bytes)) after)
              obtain ⟨frame, framed, same, sent, unsent⟩ :=
                sendException_reaches filled rfl
                  (runtime.throwable .transition)
              exact ⟨frame, framed.trans (setFrames_setFrames side _ _ _), same, sent, unsent⟩

/-! ## A call comes back to its frames -/

/-- The thread in which the handler of a call begins. -/
def entered {side : Side} (request : Request side) (thread : Thread) : Thread :=
  { setFrames side (⟨thread.objects, request.callType, none, none⟩ :: thread.frames side) thread
      with objects := thread.objects + 1, handled := none }

theorem addLast_entered {side : Side} (request : Request side) (thread : Thread) :
    addLast request.callType { thread with handled := none } =
      (.ok ⟨thread.objects, request.callType, none, none⟩, entered request thread) := rfl

theorem performCall_of_ran {side : Side} {request : Request side}
    {callee : Thread → Answer × Thread} {thread after : Thread} {result : Answer}
    (ran : executeOutgoingCall runtime request callee { thread with handled := none } =
      (result, after)) :
    performCall runtime request callee thread =
      (result, { after with
        exits := after.exits ++
          [⟨side, request, thread.frames, after.frames, after.handled, result⟩] }) := by
  have same : outgoingCall runtime request callee = executeOutgoingCall runtime request callee := by
    cases side with
    | host => rfl
    | enclave => rfl
  rw [performCall, same, ran]

theorem frame_left {side : Side} {frame : StackFrame side} {frames : Frames}
    {thread : Thread} : (setFrames side (frame :: frames side) thread).frames ≠ frames := by
  intro same
  have top := setFrames_frames side (frame :: frames side) thread
  rw [same] at top
  exact List.cons_ne_self frame (frames side) top.symm

/-- A transition that throws leaves the frame of its call. -/
theorem executeOutgoingCall_error {side : Side} {request : Request side}
    {callee : Thread → Answer × Thread} {thread after : Thread} {throwable : Throwable}
    (failed : transition runtime request.call (handleCall runtime request callee)
      (entered request thread) = (.error throwable, after)) :
    executeOutgoingCall runtime request callee { thread with handled := none } =
      (.error throwable, after) := by
  rw [executeOutgoingCall, Attempt.bind_ok (addLast_entered request thread)]
  exact Attempt.bind_error failed

theorem executeOutgoingCall_ok {side : Side} {request : Request side}
    {callee : Thread → Answer × Thread} {thread after : Thread} {frame : StackFrame side}
    {rest : List (StackFrame side)}
    (replied : transition runtime request.call (handleCall runtime request callee)
      (entered request thread) = (.ok (), setFrames side (frame :: rest) after))
    (same : frame.object = thread.objects) :
    executeOutgoingCall runtime request callee { thread with handled := none } =
      (frame.result runtime, setFrames side rest after) := by
  have popped : removeLast runtime side (setFrames side (frame :: rest) after) =
      (.ok frame, setFrames side rest after) := by
    simp only [removeLast, setFrames_frames, setFrames_setFrames]
  rw [executeOutgoingCall, Attempt.bind_ok (addLast_entered request thread),
    Attempt.bind_ok replied, Attempt.bind_ok popped, check, if_pos (decide_eq_true same),
    StackFrame.result]
  cases frame.exceptionBuffer with
  | none => rfl
  | some exceptionBuffer => rfl

def properExit (runtime : Runtime) {side : Side} (request : Request side) (frames : Frames)
    (answer : Answer) : Exit :=
  ⟨side, request, frames, frames, some answer, receive runtime request answer⟩

/-- A handler that gives back the frames it was given, and a reply to it. -/
theorem performCall_undisturbed {side : Side} {request : Request side}
    {callee : Thread → Answer × Thread} {thread after : Thread} {answer : Answer}
    (ran : callee (entered request thread) = (answer, after))
    (restored : after.frames = (entered request thread).frames)
    (undisturbed : Undisturbed runtime request answer) :
    performCall runtime request callee thread =
      (receive runtime request answer, { noted answer after with
        frames := thread.frames
        exits := after.exits ++ [properExit runtime request thread.frames answer] }) := by
  have top : after.frames side =
      ⟨thread.objects, request.callType, none, none⟩ :: thread.frames side := by
    rw [restored]
    exact setFrames_frames side _ _
  obtain ⟨frame, framed, same, sent, -⟩ := handleCall_reaches ran top
  obtain ⟨returned, result⟩ := sent undisturbed.2
  have replied : transition runtime request.call (handleCall runtime request callee)
      (entered request thread) =
        (.ok (), setFrames side (frame :: thread.frames side) (noted answer after)) := by
    rw [undisturbed.1]
    exact Prod.ext returned framed
  have popped : (setFrames side (thread.frames side) (noted answer after)).frames =
      thread.frames := by
    simp only [setFrames, noted, restored, entered, Function.update_idem, Function.update_eq_self]
  rw [performCall_of_ran (executeOutgoingCall_ok replied same), result, popped]
  rfl

/-- A frame is left behind. -/
theorem performCall_disturbed {side : Side} {request : Request side}
    {callee : Thread → Answer × Thread} {thread after : Thread} {answer : Answer}
    (ran : callee (entered request thread) = (answer, after))
    (restored : after.frames = (entered request thread).frames)
    (arrives : request.call ≠ .throwsBefore) (disturbed : ¬ Undisturbed runtime request answer) :
    ∃ exit : Exit, (performCall runtime request callee thread).2.exits = after.exits ++ [exit] ∧
      ¬ exit.Restored := by
  have top : after.frames side =
      ⟨thread.objects, request.callType, none, none⟩ :: thread.frames side := by
    rw [restored]
    exact setFrames_frames side _ _
  obtain ⟨frame, framed, -, sent, unsent⟩ := handleCall_reaches ran top
  have failed : ∃ throwable, transition runtime request.call (handleCall runtime request callee)
      (entered request thread) =
        (.error throwable, setFrames side (frame :: thread.frames side) (noted answer after)) := by
    cases behaviour : request.call with
    | throwsBefore => exact absurd behaviour arrives
    | ok =>
        obtain ⟨throwable, thrown⟩ := unsent fun replied => disturbed ⟨behaviour, replied⟩
        exact ⟨throwable, Prod.ext thrown framed⟩
    | throwsAfter =>
        rw [← framed]
        cases handled : handleCall runtime request callee (entered request thread) with
        | mk outcome state =>
            cases outcome with
            | ok _ => exact ⟨_, Attempt.bind_ok handled⟩
            | error throwable => exact ⟨_, Attempt.bind_error handled⟩
  obtain ⟨throwable, failed⟩ := failed
  rw [performCall_of_ran (executeOutgoingCall_error failed)]
  exact ⟨_, rfl, frame_left⟩

theorem performCall_throwsBefore {side : Side} {request : Request side}
    (callee : Thread → Answer × Thread) (thread : Thread)
    (lost : request.call = .throwsBefore) :
    ∃ exit : Exit, (performCall runtime request callee thread).2.exits = thread.exits ++ [exit] ∧
      ¬ exit.Restored := by
  have failed : transition runtime request.call (handleCall runtime request callee)
      (entered request thread) =
        (.error (runtime.throwable .transition), entered request thread) := by
    rw [lost]
    rfl
  rw [performCall_of_ran (executeOutgoingCall_error failed)]
  exact ⟨_, rfl, frame_left⟩

/-! ## Replies note nothing -/

/-- The method runs no call to its end. -/
def Silent {α : Type} (method : Method α) : Prop :=
  Attempt.Preserves (fun before after => after.exits = before.exits) method

section Silent

variable {α β : Type}

theorem Silent.pure (value : α) : Silent (Pure.pure value : Method α) :=
  fun _ => rfl

theorem Silent.throw (throwable : Throwable) : Silent (Attempt.throw throwable : Method α) :=
  fun _ => rfl

theorem exits_bind {method : Method α} {next : α → Method β}
    (silent : ∀ value, Silent (next value)) (thread : Thread) :
    ((method >>= next) thread).2.exits = (method thread).2.exits := by
  cases ran : method thread with
  | mk outcome after =>
      cases outcome with
      | ok value =>
          rw [Attempt.bind_ok ran]
          exact silent value after
      | error throwable => rw [Attempt.bind_error ran]

theorem exits_handle {method : Method α} {handler : Throwable → Method α}
    (silent : ∀ throwable, Silent (handler throwable)) (thread : Thread) :
    (Attempt.handle method handler thread).2.exits = (method thread).2.exits := by
  cases ran : method thread with
  | mk outcome after =>
      cases outcome with
      | ok value => rw [Attempt.handle_ok ran]
      | error throwable =>
          rw [Attempt.handle_error ran]
          exact silent throwable after

theorem Silent.bind {method : Method α} {next : α → Method β} (first : Silent method)
    (second : ∀ value, Silent (next value)) : Silent (method >>= next) :=
  fun thread => (exits_bind second thread).trans (first thread)

theorem check_silent (condition : Bool) (message : String) :
    Silent (check runtime condition message) := by
  cases condition with
  | true => exact Silent.pure ()
  | false => exact Silent.throw _

theorem last_silent (side : Side) : Silent (last runtime side) := by
  refine Silent.bind (Attempt.Preserves.get fun _ => rfl) fun thread => ?_
  cases thread.frames side with
  | nil => exact Silent.throw _
  | cons frame rest => exact Silent.pure frame

theorem removeLast_silent (side : Side) : Silent (removeLast runtime side) := by
  intro thread
  rw [removeLast]
  cases thread.frames side with
  | nil => rfl
  | cons frame rest => rfl

theorem updateLast_silent (side : Side) (change : StackFrame side → StackFrame side) :
    Silent (updateLast side change) := by
  refine Attempt.Preserves.modify fun thread => ?_
  cases thread.frames side with
  | nil => rfl
  | cons frame rest => rfl

theorem fromByte_silent (side : Side) (callTypeID : UInt8) :
    Silent (fromByte runtime side callTypeID) := by
  rw [fromByte]
  cases CallType.fromByte side callTypeID with
  | none => exact Silent.throw _
  | some callType => exact Silent.pure callType

theorem checkCallType_silent {side : Side} (callType : CallType side) :
    Silent (checkCallType runtime callType) :=
  Silent.bind (last_silent side) fun _ => check_silent _ _

theorem handleReturn_silent (side : Side) (callTypeID : UInt8) (returnBuffer : Bytes) :
    Silent (handleReturn runtime side callTypeID returnBuffer) := by
  refine Silent.bind (fromByte_silent side callTypeID) fun callType => ?_
  exact Silent.bind (checkCallType_silent callType) fun _ => updateLast_silent side _

theorem handleException_silent (side : Side) (callTypeID : UInt8) (exceptionBuffer : Bytes) :
    Silent (handleException runtime side callTypeID exceptionBuffer) := by
  refine Silent.bind (fromByte_silent side callTypeID) fun callType => ?_
  exact Silent.bind (checkCallType_silent callType) fun _ => updateLast_silent side _

theorem transition_silent (behaviour : Transition) {deliver : Method Unit}
    (silent : Silent deliver) : Silent (transition runtime behaviour deliver) := by
  cases behaviour with
  | ok => exact silent
  | throwsBefore => exact Silent.throw _
  | throwsAfter => exact Silent.bind silent fun _ => Silent.throw _

theorem sendException_silent {side : Side} (request : Request side) (throwable : Throwable) :
    Silent (sendException runtime request throwable) := by
  rw [sendException]
  cases ThrowableSerialisation.serialise
      (maybeSanitised runtime side.other request.sanitiseExceptions throwable) with
  | error error => exact Silent.throw _
  | ok serialised => exact transition_silent _ (handleException_silent _ _ _)

theorem sendReturn_silent {side : Side} (request : Request side)
    (returnBuffer : Option Bytes) : Silent (sendReturn runtime request returnBuffer) := by
  cases returnBuffer with
  | none => exact Silent.pure ()
  | some bytes => exact transition_silent _ (handleReturn_silent _ _ _)

end Silent

theorem transition_exits {behaviour : Transition} (arrives : behaviour ≠ .throwsBefore)
    (deliver : Method Unit) (thread : Thread) :
    (transition runtime behaviour deliver thread).2.exits = (deliver thread).2.exits := by
  cases behaviour with
  | ok => rfl
  | throwsBefore => exact absurd rfl arrives
  | throwsAfter => exact exits_bind (fun _ => Silent.throw _) thread

theorem handleCall_exits {side : Side} (request : Request side)
    (callee : Thread → Answer × Thread) (thread : Thread) :
    (handleCall runtime request callee thread).2.exits = (callee thread).2.exits := by
  rw [handleCall, exits_handle (sendException_silent request),
    exits_bind (sendReturn_silent request)]
  rfl

theorem performCall_exits {side : Side} {request : Request side}
    (callee : Thread → Answer × Thread) (thread : Thread)
    (arrives : request.call ≠ .throwsBefore) :
    ∃ exit : Exit, (performCall runtime request callee thread).2.exits =
      (callee (entered request thread)).2.exits ++ [exit] := by
  have called : (executeOutgoingCall runtime request callee
      { thread with handled := none }).2.exits = (callee (entered request thread)).2.exits := by
    rw [executeOutgoingCall, Attempt.bind_ok (addLast_entered request thread), exits_bind,
      transition_exits arrives, handleCall_exits]
    intro _
    refine Silent.bind (removeLast_silent side) fun popped => ?_
    refine Silent.bind (check_silent _ _) fun _ => ?_
    cases popped.exceptionBuffer with
    | none => exact Silent.pure _
    | some exceptionBuffer => exact Silent.throw _
  cases ran : executeOutgoingCall runtime request callee { thread with handled := none } with
  | mk result after =>
      rw [ran] at called
      rw [performCall_of_ran ran]
      exact ⟨_, congrArg (· ++ [_]) called⟩

/-! ## Trees of calls -/

theorem received_isError {side : Side} (request : Request side) (throwable : Throwable) :
    ∃ thrown, received runtime request throwable = .error thrown := by
  rw [received]
  cases ThrowableSerialisation.serialise
      (maybeSanitised runtime side.other request.sanitiseExceptions throwable) with
  | error error => exact ⟨_, rfl⟩
  | ok serialised => exact ⟨_, rfl⟩

theorem Delivered.undisturbed {side : Side} {request : Request side} {answer : Answer}
    (delivered : Delivered runtime request answer) : Undisturbed runtime request answer := by
  cases answer with
  | error throwable => exact delivered
  | ok returnBuffer =>
      cases returnBuffer with
      | none => exact ⟨delivered, trivial⟩
      | some bytes => exact ⟨delivered.1, Or.inl delivered.2⟩

theorem receive_eq_delivered_iff {side : Side} {request : Request side} {answer : Answer}
    (undisturbed : Undisturbed runtime request answer) :
    receive runtime request answer = delivered runtime request answer ↔
      Delivered runtime request answer := by
  cases answer with
  | error throwable => exact iff_of_true rfl undisturbed
  | ok returnBuffer =>
      cases returnBuffer with
      | none => exact iff_of_true rfl undisturbed.1
      | some bytes =>
          rw [receive, delivered, Delivered]
          by_cases behaviour : request.return_ = .ok
          · rw [if_pos behaviour]
            exact iff_of_true rfl ⟨undisturbed.1, behaviour⟩
          · rw [if_neg behaviour]
            obtain ⟨thrown, isError⟩ :=
              received_isError request (runtime.throwable .transition)
            refine iff_of_false ?_ fun both => behaviour both.2
            rw [isError]
            intro impossible
            cases impossible

/-- When all of these calls restored the frames, and when they all ended correctly. -/
structure Ends (runtime : Runtime) (exits : List Exit) (restores delivers : Prop) : Prop where
  restored : (∀ exit ∈ exits, exit.Restored) ↔ restores
  correct : (∀ exit ∈ exits, exit.Correct runtime) ↔ delivers

theorem Ends.nil : Ends runtime [] True True :=
  ⟨iff_of_true (List.forall_mem_nil _) trivial, iff_of_true (List.forall_mem_nil _) trivial⟩

theorem Ends.append {first second : List Exit} {restores delivers restores' delivers' : Prop}
    (ends : Ends runtime first restores delivers)
    (later : Ends runtime second restores' delivers') :
    Ends runtime (first ++ second) (restores ∧ restores') (delivers ∧ delivers') :=
  ⟨List.forall_mem_append.trans (and_congr ends.restored later.restored),
    List.forall_mem_append.trans (and_congr ends.correct later.correct)⟩

theorem Ends.unrestored {exits : List Exit} {restores delivers : Prop}
    (left : ∃ exit ∈ exits, ¬ exit.Restored) (notRestores : ¬ restores)
    (notDelivers : ¬ delivers) : Ends runtime exits restores delivers := by
  obtain ⟨exit, isIn, wrong⟩ := left
  refine ⟨iff_of_false (fun all => wrong (all exit isIn)) notRestores, ?_⟩
  exact iff_of_false (fun all => wrong (all exit isIn).restored) notDelivers

theorem Ends.exists_unrestored {exits : List Exit} {restores delivers : Prop}
    (ends : Ends runtime exits restores delivers) (notRestores : ¬ restores) :
    ∃ exit ∈ exits, ¬ exit.Restored := by
  by_contra none
  refine notRestores (ends.restored.mp fun exit isIn => ?_)
  by_contra wrong
  exact none ⟨exit, isIn, wrong⟩

theorem Ends.restores {exits : List Exit} {restores delivers : Prop}
    (ends : Ends runtime exits restores delivers) (delivered : delivers) : restores :=
  ends.restored.mp fun exit isIn => (ends.correct.mpr delivered exit isIn).restored

/-- What a run comes to if its calls restore the frames, and when they do. -/
def Runs (runtime : Runtime) (run : Thread → Answer × Thread) (answer : Answer)
    (restores delivers : Prop) : Prop :=
  ∀ thread, ∃ exits, (run thread).2.exits = thread.exits ++ exits ∧
    Ends runtime exits restores delivers ∧
    (restores → (run thread).1 = answer ∧ (run thread).2.frames = thread.frames)

theorem properExit_ends {side : Side} {request : Request side} {answer : Answer}
    (frames : Frames) (undisturbed : Undisturbed runtime request answer) :
    Ends runtime [properExit runtime request frames answer] (Undisturbed runtime request answer)
      (Delivered runtime request answer) := by
  constructor
  · rw [List.forall_mem_singleton]
    exact iff_of_true rfl undisturbed
  · rw [List.forall_mem_singleton, ← receive_eq_delivered_iff undisturbed]
    constructor
    · rintro ⟨-, handled, same, result⟩
      cases same
      exact result
    · exact fun result => ⟨rfl, answer, rfl, result⟩

theorem Runs.done (answer : Answer) :
    Runs runtime (fun thread => (answer, thread)) answer True True :=
  fun _ => ⟨[], (List.append_nil _).symm, Ends.nil, fun _ => ⟨rfl, rfl⟩⟩

theorem Runs.call {side : Side} {request : Request side} {callee : Thread → Answer × Thread}
    {answer : Answer} {restores delivers : Prop}
    (runs : Runs runtime callee answer restores delivers) :
    Runs runtime (performCall runtime request callee) (receive runtime request answer)
      (restores ∧ Undisturbed runtime request answer)
      (delivers ∧ Delivered runtime request answer) := by
  intro thread
  by_cases arrives : request.call = .throwsBefore
  · obtain ⟨exit, exits, wrong⟩ :=
      performCall_throwsBefore callee thread arrives
    have disturbed : ¬ Undisturbed runtime request answer := by
      rintro ⟨ok, -⟩
      exact absurd (arrives.symm.trans ok) (by simp)
    refine ⟨[exit], exits, Ends.unrestored ⟨exit, List.mem_singleton_self exit, wrong⟩ ?_ ?_, ?_⟩
    · exact fun both => disturbed both.2
    · exact fun both => disturbed both.2.undisturbed
    · exact fun both => absurd both.2 disturbed
  obtain ⟨exits, prolonged, ends, back⟩ := runs (entered request thread)
  by_cases restored : restores
  · obtain ⟨answered, frames⟩ := back restored
    have ran : callee (entered request thread) = (answer, _) := Prod.ext answered rfl
    by_cases undisturbed : Undisturbed runtime request answer
    · rw [performCall_undisturbed ran frames undisturbed]
      refine ⟨exits ++ [_], ?_, ends.append (properExit_ends thread.frames undisturbed),
        fun _ => ⟨rfl, rfl⟩⟩
      rw [← List.append_assoc]
      exact congrArg (· ++ [_]) prolonged
    · obtain ⟨exit, noted, wrong⟩ := performCall_disturbed ran frames arrives undisturbed
      rw [noted, prolonged, List.append_assoc]
      refine ⟨exits ++ [exit], rfl, Ends.unrestored ⟨exit, by simp, wrong⟩ ?_ ?_, ?_⟩
      · exact fun both => undisturbed both.2
      · exact fun both => undisturbed both.2.undisturbed
      · exact fun both => absurd both.2 undisturbed
  · obtain ⟨exit, noted⟩ := performCall_exits callee thread arrives
    obtain ⟨earlier, isIn, wrong⟩ := ends.exists_unrestored restored
    rw [noted, prolonged, List.append_assoc]
    refine ⟨exits ++ [exit], rfl,
      Ends.unrestored ⟨earlier, List.mem_append_left _ isIn, wrong⟩ ?_ ?_, ?_⟩
    · exact fun both => restored both.1
    · exact fun both => restored (ends.restores both.1)
    · exact fun both => absurd both.1 restored

theorem Runs.next {run : Thread → Answer × Thread} {next : Answer → Thread → Answer × Thread}
    {answer : Answer} {later : Answer → Answer} {restores delivers : Prop}
    {restores' delivers' : Answer → Prop} (first : Runs runtime run answer restores delivers)
    (second : ∀ answer, Runs runtime (next answer) (later answer) (restores' answer)
      (delivers' answer)) :
    Runs runtime (fun thread => next (run thread).1 (run thread).2) (later answer)
      (restores ∧ restores' answer) (delivers ∧ delivers' answer) := by
  intro thread
  obtain ⟨exits, prolonged, ends, back⟩ := first thread
  obtain ⟨exits', extends', ends', back'⟩ := second (run thread).1 (run thread).2
  refine ⟨exits ++ exits', ?_, ?_, ?_⟩
  · rw [extends', prolonged, List.append_assoc]
  · by_cases restored : restores
    · obtain ⟨answered, -⟩ := back restored
      rw [answered] at ends'
      exact ends.append ends'
    · obtain ⟨exit, isIn, wrong⟩ := ends.exists_unrestored restored
      refine Ends.unrestored ⟨exit, List.mem_append_left _ isIn, wrong⟩ ?_ ?_
      · exact fun both => restored both.1
      · exact fun both => restored (ends.restores both.1)
  · rintro ⟨restored, restored'⟩
    obtain ⟨rfl, frames⟩ := back restored
    obtain ⟨answered, frames'⟩ := back' restored'
    exact ⟨answered, frames'.trans frames⟩

/-- What one thread does on both sides: calls in calls. -/
abbrev CallTree (side : Side) : Type := Behaviour Side.other Request Answer side

theorem CallTree.runs {side : Side} (calls : CallTree side) :
    Runs runtime (calls.execute (performCall runtime)) (calls.answer (receive runtime))
      (calls.Everywhere (receive runtime) (Undisturbed runtime))
      (calls.Everywhere (receive runtime) (Delivered runtime)) := by
  induction calls with
  | done answer => exact Runs.done answer
  | call request callee next calleeRuns nextRuns =>
      rw [Behaviour.Everywhere, Behaviour.Everywhere, Behaviour.answer, ← and_assoc, ← and_assoc]
      exact calleeRuns.call.next nextRuns

/-- Every call of the tree, those in handlers included, ends correctly exactly if every message
of a call gets through, and every reply, and every exception can be written; the frames are
restored exactly if at least an exception gets through where the reply does not. -/
theorem exits_correct_iff {side : Side} (calls : CallTree side) (thread : Thread) :
    ∃ exits, (calls.execute (performCall runtime) thread).2.exits = thread.exits ++ exits ∧
      ((∀ exit ∈ exits, exit.Correct runtime) ↔
        calls.Everywhere (receive runtime) (Delivered runtime)) ∧
      ((∀ exit ∈ exits, exit.Restored) ↔
        calls.Everywhere (receive runtime) (Undisturbed runtime)) := by
  obtain ⟨exits, noted, ends, -⟩ := calls.runs thread
  exact ⟨exits, noted, ends.correct, ends.restored⟩

end Interface

/-! ## A transition that throws -/

def idleThread : Thread := ⟨fun _ => [], 0, none, []⟩

def exampleRequest {side : Side} (callType : CallType side) (call : Transition) : Request side :=
  ⟨callType, [], call, .ok, .ok, false⟩

/-- The host starts the enclave, which calls it back.  The host's handler makes a call that never
gets to the enclave, swallows the exception and returns; the enclave then returns a byte. -/
def swallowed : CallTree .host :=
  .call (exampleRequest (EnclaveCallType.START_ENCLAVE : CallType .host) .ok)
    (.call (exampleRequest (HostCallType.CALL_MESSAGE_HANDLER : CallType .enclave) .ok)
      (.call (exampleRequest (EnclaveCallType.START_ENCLAVE : CallType .host) .throwsBefore)
        (.done (.ok none)) fun _ => .done (.ok none))
      fun _ => .done (.ok (some [7])))
    .done

/-- The byte is stored in the frame that was left behind, and the frame of the first call stays. -/
theorem swallowed_losesResult :
    ∃ exit ∈ (swallowed.execute (performCall exampleRuntime) idleThread).2.exits,
      exit.handled = some (.ok (some [7])) ∧ (∃ thrown, exit.result = .error thrown) ∧
        ¬ exit.Restored ∧ ¬ exit.Correct exampleRuntime := by
  have last : ∃ exit,
      (swallowed.execute (performCall exampleRuntime) idleThread).2.exits.getLast? = some exit ∧
        exit.handled = some (.ok (some [7])) ∧
        (∃ thrown, exit.result = .error thrown) ∧
        (exit.after .host).length ≠ (exit.before .host).length :=
    ⟨_, rfl, rfl, ⟨_, rfl⟩, by decide +kernel⟩
  obtain ⟨exit, isLast, handled, thrown, longer⟩ := last
  have left : ¬ exit.Restored := fun same =>
    longer (congrArg (fun frames => (frames .host).length) same)
  exact ⟨exit, List.mem_of_getLast? isLast, handled, thrown, left,
    fun correct => left correct.restored⟩

end Conclave.Calls.Native
