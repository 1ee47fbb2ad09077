import ConclaveFormal.Calls.SocketReplies

/-!
# Calls that are lost

A handler whose reply can not be built leaves a call that is never answered.  So every call is
answered exactly if every handler that is called can reply.
-/

set_option autoImplicit false

namespace Conclave.Calls.Socket

open Conclave.Lib Conclave.Common

section Steps

variable {runtime : Runtime}

/-! ## A call that is never answered -/

def Note.asCall {side : Side} : Note side → Option Nat
  | .call id _ _ => some id
  | .reply _ _ => none

/-- The call is on its way, being handled or answered. -/
def Connection.Accounted (connection : Connection) (id : Nat) : Prop :=
  (∃ call ∈ collect Frame.handled connection.frames, call.id = id) ∨
    (∃ side, ∃ note ∈ connection.notes side, note.asCall = some id) ∨
    ∃ reply ∈ connection.history.replies, reply.id = id

structure Lost (connection : Connection) (id : Nat) : Prop where
  made : ∃ call ∈ connection.history.calls, call.id = id
  old : id < connection.history.calls.length
  unaccounted : ¬ connection.Accounted id

/-- No call is forgotten, and calls of before are accounted for only if they were. -/
structure Follows (before after : Connection) : Prop where
  calls : ∀ call ∈ before.history.calls, call ∈ after.history.calls
  length : before.history.calls.length ≤ after.history.calls.length
  accounted : ∀ id, id < before.history.calls.length → after.Accounted id → before.Accounted id

theorem Lost.follows {before after : Connection} {id : Nat} (lost : Lost before id)
    (follows : Follows before after) : Lost after id := by
  obtain ⟨call, isCall, same⟩ := lost.made
  refine ⟨⟨call, follows.calls call isCall, same⟩, lost.old.trans_le follows.length, ?_⟩
  exact fun accounted => lost.unaccounted (follows.accounted id lost.old accounted)

/-- Nothing was sent and nothing added. -/
structure Shrinks (before after : Connection) : Prop where
  sent : after.history.sent = before.history.sent
  frames : ∀ side, after.frames side ⊆ before.frames side
  notes : ∀ side, after.notes side ⊆ before.notes side

theorem collect_subset {β : Type} {field : ∀ {side : Side}, Frame side → Option β}
    {before after : Frames} (part : ∀ side, after side ⊆ before side) :
    collect field after ⊆ collect field before := by
  intro value isIn
  rcases List.mem_append.mp isIn with host | enclave
  · obtain ⟨frame, isFrame, has⟩ := List.mem_filterMap.mp host
    exact List.mem_append_left _ (List.mem_filterMap.mpr ⟨frame, part .host isFrame, has⟩)
  · obtain ⟨frame, isFrame, has⟩ := List.mem_filterMap.mp enclave
    exact List.mem_append_right _ (List.mem_filterMap.mpr ⟨frame, part .enclave isFrame, has⟩)

namespace Shrinks

variable {first middle last : Connection}

theorem refl (connection : Connection) : Shrinks connection connection :=
  ⟨rfl, fun _ => List.Subset.refl _, fun _ => List.Subset.refl _⟩

theorem trans (shrinks : Shrinks first middle) (later : Shrinks middle last) :
    Shrinks first last :=
  ⟨later.sent.trans shrinks.sent,
    fun side => List.Subset.trans (later.frames side) (shrinks.frames side),
    fun side => List.Subset.trans (later.notes side) (shrinks.notes side)⟩

theorem calls (shrinks : Shrinks first last) : last.history.calls = first.history.calls := by
  rw [History.calls, shrinks.sent]
  rfl

theorem replies (shrinks : Shrinks first last) :
    last.history.replies = first.history.replies := by
  rw [History.replies, shrinks.sent]
  rfl

theorem accounted (shrinks : Shrinks first last) {id : Nat} (accounted : last.Accounted id) :
    first.Accounted id := by
  rcases accounted with ⟨call, isHandled, same⟩ | ⟨side, note, isNote, same⟩ | replied
  · exact Or.inl ⟨call, collect_subset shrinks.frames isHandled, same⟩
  · exact Or.inr (Or.inl ⟨side, note, shrinks.notes side isNote, same⟩)
  · rw [shrinks.replies] at replied
    exact Or.inr (Or.inr replied)

theorem follows (shrinks : Shrinks first last) : Follows first last := by
  refine ⟨?_, ?_, fun _ _ accounted => shrinks.accounted accounted⟩
  · rw [shrinks.calls]
    exact fun _ isCall => isCall
  · rw [shrinks.calls]

theorem setFrames {side : Side} {connection : Connection} {rest : List (Frame side)}
    (part : rest ⊆ connection.frames side) : Shrinks connection (connection.setFrames rest) := by
  refine ⟨rfl, ?_, fun _ => List.Subset.refl _⟩
  intro other
  by_cases same : other = side
  · subst same
    simpa [Connection.setFrames] using part
  · simp [Connection.setFrames, same]

theorem throwOut (side : Side) (exception : InterfaceException) (connection : Connection) :
    Shrinks connection (throwOut runtime side exception connection) := by
  rw [Socket.throwOut]
  split
  · rename_i id callType next rest top
    have part : rest ⊆ connection.frames side := by
      rw [top]
      exact List.subset_cons_self _ _
    exact (setFrames part).trans ⟨rfl, fun _ => List.Subset.refl _, fun _ => List.Subset.refl _⟩
  · exact ⟨rfl, fun _ => List.Subset.refl _, fun _ => List.Subset.refl _⟩

end Shrinks

theorem collect_cons {β : Type} {field : ∀ {side : Side}, Frame side → Option β} {side : Side}
    {frame : Frame side} {frames : Frames} {value : β}
    (isIn : value ∈ collect field (push frame frames)) :
    field frame = some value ∨ value ∈ collect field frames := by
  cases has : field frame with
  | none =>
      rw [collect_push_none frames has] at isIn
      exact Or.inr isIn
  | some other =>
      rcases List.mem_cons.mp ((collect_push_some frames has).mem_iff.mp isIn) with same | isIn
      · exact Or.inl (congrArg some same.symm)
      · exact Or.inr isIn

theorem written_message {composed message : SocketCallInterfaceMessage} {bytes : Bytes}
    (written : (match composed.toByteArray with
      | none => .error .illegalArgument
      | some bytes => .ok (composed, bytes) :
        Except InterfaceException (SocketCallInterfaceMessage × Bytes)) = .ok (message, bytes)) :
    composed = message := by
  split at written
  · cases written
  · cases written
    rfl

theorem reply_isReply {side : Side} {callType : CallType side.other} {sanitiseExceptions : Bool}
    {answer : Answer} {message : SocketCallInterfaceMessage} {bytes : Bytes}
    (built : reply runtime side callType sanitiseExceptions answer = .ok (message, bytes)) :
    message.messageType = .RETURN ∨ message.messageType = .EXCEPTION := by
  cases answer with
  | ok returnBuffer => exact written_message built ▸ Or.inl rfl
  | error throwable =>
      cases serialised : ThrowableSerialisation.serialise
          (maybeSanitised runtime side sanitiseExceptions throwable) with
      | error error =>
          simp [reply, replyMessage, serialised, bind, Except.bind] at built
      | ok serialisedBytes =>
          simp only [reply, replyMessage, serialised, bind, Except.bind] at built
          exact written_message built ▸ Or.inr rfl

theorem mem_collect {β : Type} {field : ∀ {side : Side}, Frame side → Option β} {side : Side}
    {frame : Frame side} {frames : Frames} {value : β} (isIn : frame ∈ frames side)
    (has : field frame = some value) : value ∈ collect field frames := by
  cases side with
  | host => exact List.mem_append_left _ (List.mem_filterMap.mpr ⟨frame, isIn, has⟩)
  | enclave => exact List.mem_append_right _ (List.mem_filterMap.mpr ⟨frame, isIn, has⟩)

theorem mem_update {α : Side → Type} {lists : (side : Side) → List (α side)} {receiver side : Side}
    {new : α receiver} {value : α side}
    (isIn : value ∈ Function.update lists receiver (lists receiver ++ [new]) side) :
    value ∈ lists side ∨ ∃ same : receiver = side, same ▸ new = value := by
  by_cases same : side = receiver
  · subst same
    rw [Function.update_self] at isIn
    rcases List.mem_append.mp isIn with old | last
    · exact Or.inl old
    · exact Or.inr ⟨rfl, (List.mem_singleton.mp last).symm⟩
  · rw [Function.update_of_ne same] at isIn
    exact Or.inl isIn

theorem finishHandler_follows {side : Side} {answer : Answer} {before after : Connection}
    (finished : @finishHandler runtime side answer before = some after) :
    Follows before after := by
  rw [finishHandler] at finished
  split at finished
  · rename_i id callType sanitiseExceptions rest top
    have part : rest ⊆ before.frames side := by
      rw [top]
      exact List.subset_cons_self _ _
    have popped : Shrinks before (before |>.setContexts (leaveHandler rest before.contexts)
        |>.setFrames rest) :=
      (Shrinks.setFrames part).trans
        ⟨rfl, fun _ => List.Subset.refl _, fun _ => List.Subset.refl _⟩
    split at finished
    · cases finished
      exact (popped.trans (Shrinks.throwOut side _ _)).follows
    · rename_i message bytes built
      cases finished
      have isReply := reply_isReply built
      have calls := calls_send_reply id before.history isReply
      have replies := replies_send_reply id before.history isReply
      refine ⟨fun call isCall => ?_, (congrArg List.length calls).ge, fun other _ accounted => ?_⟩
      · exact calls.symm ▸ isCall
      rcases accounted with ⟨call, isHandled, same⟩ | ⟨receiver, note, isNote, same⟩ |
        ⟨sent, isSent, same⟩
      · exact Or.inl ⟨call, collect_subset popped.frames isHandled, same⟩
      · rcases mem_update isNote with old | ⟨rfl, isNew⟩
        · exact Or.inr (Or.inl ⟨receiver, note, old, same⟩)
        · subst isNew
          cases same
      · rcases List.mem_append.mp (replies ▸ isSent) with old | new
        · exact Or.inr (Or.inr ⟨sent, old, same⟩)
        · refine Or.inl ⟨⟨id, callType.toByte⟩, ?_, ?_⟩
          · refine mem_collect (show _ ∈ before.frames side from top ▸ List.mem_cons_self) rfl
          · rw [← same, List.mem_singleton.mp new]
  · cases finished

theorem executeOutgoingCall_follows {side : Side} {request : Request side}
    {callee : CallTree side.other} {next : Answer → CallTree side} {before after : Connection}
    (called : executeOutgoingCall runtime request callee next before = some after) :
    Follows before after := by
  have same (contexts : Contexts) (control : Control side) :
      Shrinks before (before |>.setContexts contexts |>.setControl control) :=
    ⟨rfl, fun _ => List.Subset.refl _, fun _ => List.Subset.refl _⟩
  rw [executeOutgoingCall] at called
  split at called
  · cases called
  · cases called
    exact (same before.contexts _).follows
  · rename_i contexts _
    cases written : (callMessage request).toByteArray with
    | none =>
      simp only [callMessage] at written
      simp only [written] at called
      cases called
      exact (same _ _).follows
    | some bytes =>
      simp only [callMessage] at written
      simp only [written] at called
      cases called
      have calls := calls_send_call before.history.calls.length (callMessage request)
        before.history rfl
      have replies := replies_send_call before.history.calls.length (callMessage request)
        before.history rfl
      refine ⟨fun call isCall => ?_, ?_, fun id old accounted => ?_⟩
      · exact calls.symm ▸ List.mem_append_left _ isCall
      · refine (congrArg List.length calls).symm ▸ ?_
        rw [List.length_append]
        exact Nat.le_add_right _ _
      rcases accounted with ⟨call, isHandled, same⟩ | ⟨receiver, note, isNote, same⟩ |
        ⟨sent, isSent, same⟩
      · rcases collect_cons isHandled with impossible | isHandled
        · cases impossible
        · exact Or.inl ⟨call, isHandled, same⟩
      · rcases mem_update isNote with isNote | ⟨rfl, isNew⟩
        · exact Or.inr (Or.inl ⟨receiver, note, isNote, same⟩)
        · subst isNew
          cases same
          exact absurd old (Nat.lt_irrefl _)
      · exact Or.inr (Or.inr ⟨sent, replies ▸ isSent, same⟩)

/-- The handler of a call starts when its message has been taken. -/
theorem handleCallMessage_follows {side : Side} {message : SocketCallInterfaceMessage}
    {note : Note side} {before taken after : Connection} (shrinks : Shrinks before taken)
    (isNote : note ∈ before.notes side)
    (handled : handleCallMessage runtime side message note taken = some after) :
    Follows before after := by
  have threw (exception : InterfaceException) :
      Follows before (throwOut runtime side exception taken) :=
    (shrinks.trans (Shrinks.throwOut side exception taken)).follows
  simp only [handleCallMessage] at handled
  split at handled
  · cases handled
    exact threw _
  · cases handled
    exact threw _
  · rename_i callType payload id sanitiseExceptions callee known filled
    cases handled
    have calls : taken.history.calls = before.history.calls := shrinks.calls
    refine ⟨fun call isCall => ?_, (congrArg List.length calls).ge, fun other _ accounted => ?_⟩
    · exact calls.symm ▸ isCall
    rcases accounted with ⟨call, isHandled, same⟩ | notes | replied
    · rcases collect_cons isHandled with isNew | isHandled
      · cases isNew
        exact Or.inr (Or.inl ⟨side, _, isNote, congrArg some same⟩)
      · exact shrinks.accounted (Or.inl ⟨call, isHandled, same⟩)
    · exact shrinks.accounted (Or.inr (Or.inl notes))
    · exact shrinks.accounted (Or.inr (Or.inr replied))
  · cases handled

theorem handleInitialMessage_follows {side : Side} {message : SocketCallInterfaceMessage}
    {note : Note side} {before taken after : Connection} (shrinks : Shrinks before taken)
    (isNote : note ∈ before.notes side)
    (handled : handleInitialMessage runtime side message note taken = some after) :
    Follows before after := by
  rw [handleInitialMessage] at handled
  split at handled
  · cases handled
    have stopped : Shrinks taken (taken.setControl (Control.stopped : Control side)) :=
      ⟨rfl, fun _ => List.Subset.refl _, fun _ => List.Subset.refl _⟩
    exact (shrinks.trans stopped).follows
  · split at handled
    · have entered : Shrinks taken
          (taken.setContexts { taken.contexts with enclaveCallContext := true }) :=
        ⟨rfl, fun _ => List.Subset.refl _, fun _ => List.Subset.refl _⟩
      exact handleCallMessage_follows (shrinks.trans entered) isNote handled
    · cases handled
      exact (shrinks.trans (Shrinks.throwOut side _ taken)).follows

theorem finishCall_shrinks {side : Side} {id : Nat} {callType : CallType side}
    {next : Answer → CallTree side} {rest : List (Frame side)}
    (message : SocketCallInterfaceMessage) (note : Note side) {connection : Connection}
    (top : connection.frames side = .call id callType next :: rest) :
    Shrinks connection (finishCall runtime id callType next rest message note connection) := by
  have part : rest ⊆ connection.frames side := by
    rw [top]
    exact List.subset_cons_self _ _
  exact (Shrinks.setFrames part).trans
    ⟨rfl, fun _ => List.Subset.refl _, fun _ => List.Subset.refl _⟩

theorem awaitMessage_follows {side : Side} {before after : Connection}
    (received : awaitMessage runtime side before = some after) : Follows before after := by
  rw [awaitMessage] at received
  split at received
  · split at received
    · cases received
      exact (Shrinks.throwOut side _ _).follows
    · cases received
  · rename_i rest _
    cases received
    have read : Shrinks before { before with inbox := Function.update before.inbox side rest } :=
      ⟨rfl, fun _ => List.Subset.refl _, fun _ => List.Subset.refl _⟩
    exact (read.trans (Shrinks.throwOut side _ _)).follows
  · cases received
  · rename_i message rest note notes _ top
    have isNote : note ∈ before.notes side := by
      rw [top]
      exact List.mem_cons_self
    have taken : Shrinks before { before with
        inbox := Function.update before.inbox side rest
        notes := Function.update before.notes side notes } := by
      refine ⟨rfl, fun _ => List.Subset.refl _, fun other => ?_⟩
      by_cases same : other = side
      · subst same
        simp [top]
      · simp [same]
    cases waiting : before.frames side with
    | nil =>
        simp only [waiting] at received
        exact handleInitialMessage_follows taken isNote received
    | cons frame outer =>
        cases frame with
        | call id callType next =>
            simp only [waiting] at received
            split at received
            · exact handleCallMessage_follows taken isNote received
            · cases received
              exact (taken.trans (finishCall_shrinks message note waiting)).follows
        | handling id callType sanitiseExceptions =>
            simp only [waiting] at received
            cases received

theorem step_follows {side : Side} {before after : Connection}
    (stepped : step runtime before side = some after) : Follows before after := by
  rw [step] at stepped
  split at stepped
  · exact executeOutgoingCall_follows stepped
  · exact finishHandler_follows stepped
  · exact awaitMessage_follows stepped
  · cases stepped

theorem finishHandler_loses {side : Side} {request : Request side}
    {next : Answer → CallTree side} {incoming : CallType side.other.other} {id : Nat}
    {frames : Frames} {history : History} {answer : Answer}
    (sound : Sound (inCall request next incoming id frames) history)
    (unreplied : ¬ Replied runtime request answer) :
    ∃ after, step runtime (working (.done answer : CallTree side.other)
      (inCall request next incoming id frames) history) side.other = some after ∧
        Lost after id := by
  obtain ⟨exception, failed⟩ := reply_of_not_replied incoming unreplied
  have top : (working (.done answer : CallTree side.other)
      (inCall request next incoming id frames) history).frames side.other =
        .handling id incoming request.sanitiseExceptions ::
          (push (.call id request.callType next) frames) side.other :=
    push_same _ _
  rw [step, working_control]
  simp only [finishHandler, top, failed]
  refine ⟨_, rfl, Lost.follows ?_ (Shrinks.throwOut _ _ _).follows⟩
  have pushed := collect_push_some
    (push (.call id request.callType next) frames)
    (show (@Frame.handling side.other id incoming request.sanitiseExceptions).handled =
      some ⟨_, _⟩ from rfl)
  have answered := sound.answered.trans (pushed.append_right _)
  have distinct := ((answered.map CallId.id).nodup_iff).mp sound.nodup
  rw [List.cons_append, List.map_cons, List.nodup_cons] at distinct
  have isCall : ⟨id, incoming.toByte⟩ ∈ history.calls :=
    answered.mem_iff.mpr List.mem_cons_self
  have numbered : id ∈ history.calls.map CallId.id := List.mem_map.mpr ⟨_, isCall, rfl⟩
  rw [sound.numbered] at numbered
  refine ⟨⟨_, isCall, rfl⟩, List.mem_range.mp numbered, fun accounted => distinct.1 ?_⟩
  rw [List.map_append, List.mem_append]
  rcases accounted with ⟨call, isHandled, same⟩ | ⟨receiver, note, isNote, -⟩ |
    ⟨sent, isSent, same⟩
  · refine Or.inl (List.mem_map.mpr ⟨call, ?_, same⟩)
    have popped := push_pop (@Frame.handling side.other id incoming request.sanitiseExceptions)
      (push (.call id request.callType next) frames)
    exact (congrArg (collect Frame.handled) popped) ▸ isHandled
  · cases isNote
  · exact Or.inr (List.mem_map.mpr ⟨sent, isSent, same⟩)

/-- Some run from here loses a call. -/
def Loses (runtime : Runtime) (connection : Connection) : Prop :=
  ∃ schedule lost id, run (step runtime) connection schedule = some lost ∧ Lost lost id

theorem Loses.before {first second : Connection} {P : Connection → Prop}
    (loses : Loses runtime second) (path : OnlyPath (step runtime) P first second) :
    Loses runtime first := by
  obtain ⟨earlier, ran⟩ := path.exists_run
  obtain ⟨schedule, lost, id, later, isLost⟩ := loses
  refine ⟨earlier ++ schedule, lost, id, ?_, isLost⟩
  rw [run_append, ran]
  exact later

theorem loses_of_not_throughout {side : Side} (code : CallTree side) {frames : Frames}
    {history : History} (ready : Ready side frames) (sound : Sound frames history)
    (unreplied : ¬ code.Throughout (receive runtime) Request.Fits (Replied runtime)) :
    Loses runtime (working code frames history) := by
  induction code generalizing frames history with
  | done answer => exact absurd trivial unreplied
  | @call side request callee next calleeRuns nextRuns =>
      by_cases fits : request.Fits
      · obtain ⟨incoming, same, ready', sound', enters⟩ :=
          enters_path callee next ready sound fits
        by_cases calleeReplied : callee.Throughout (receive runtime) Request.Fits (Replied runtime)
        · obtain ⟨history₁, sound₁, handles⟩ :=
            runs_of_throughout callee ready' sound' calleeReplied
          refine Loses.before ?_ (enters.trans handles)
          by_cases replied : Replied runtime request (callee.answer (receive runtime))
          · obtain ⟨history₂, sound₂, replies⟩ := replies_path ready ready' sound₁ fits same replied
            refine Loses.before ?_ replies
            refine nextRuns _ ready sound₂ fun nextReplied => unreplied ?_
            exact ⟨fun _ => ⟨calleeReplied, replied⟩, nextReplied⟩
          · obtain ⟨after, stepped, lost⟩ := finishHandler_loses sound₁ replied
            refine ⟨[side.other], after, _, ?_, lost⟩
            rw [run, stepped]
            rfl
        · exact (calleeRuns ready' sound' calleeReplied).before enters
      · refine Loses.before ?_ (refused_path callee next (callee.answer (receive runtime)) ready
          sound fits)
        refine nextRuns _ ready sound fun nextReplied => unreplied ?_
        exact ⟨fun impossible => absurd impossible fits, nextReplied⟩

theorem ready_idle : Ready .host (fun _ => []) := by
  refine ⟨Or.inr ⟨rfl, rfl⟩, ?_, fun _ => rfl⟩
  intro impossible
  cases impossible

theorem sound_idle : Sound (fun _ => []) ⟨[], []⟩ :=
  ⟨rfl, List.Perm.refl _, List.Perm.refl _, fun _ isIn => by cases isIn⟩

theorem finished_stuck (answer : Answer) {frames : Frames} (history : History)
    (outside : frames .host = []) (side : Side) :
    step runtime (working (.done answer : CallTree .host) frames history) side = none := by
  cases side with
  | enclave => exact working_only _ _ _ .enclave (by simp)
  | host =>
      have top : (working (.done answer : CallTree .host) frames history).frames .host = [] :=
        outside
      rw [step, working_control]
      simp only [finishHandler, top]

end Steps

/-- A call that is lost is never answered, so that nothing settles any more. -/
theorem not_alwaysSettles_of_loses {runtime : Runtime} {code : CallTree .host}
    (loses : Loses runtime (connected code)) : ¬ AlwaysSettles runtime code := by
  intro settles
  obtain ⟨schedule, lost, id, ran, isLost⟩ := loses
  obtain ⟨-, later, final, continued, finished⟩ := settles schedule lost ran
  have staysLost : ∀ {before side after}, Lost before id → step runtime before side = some after →
      Lost after id := fun lost stepped => lost.follows (step_follows stepped)
  have lostFinally : Lost final id := run_invariant staysLost isLost continued
  have whole : run (step runtime) (connected code) (schedule ++ later) = some final := by
    rw [run_append, ran]
    exact continued
  obtain ⟨call, isCall, same⟩ := lostFinally.made
  have answered := ((settles _ final whole).1 finished.1).answered call isCall
  have isReply : call ∈ final.history.replies :=
    (List.mem_filter.mp (answered.symm ▸ List.mem_singleton_self call)).1
  exact lostFinally.unaccounted (Or.inr (Or.inr ⟨call, isReply, same⟩))

/-- Every call is answered once, comes back with what its handler did and leaves the connection
as it was, exactly if the reply of every handler that is called can be built. -/
theorem alwaysSettles_iff (runtime : Runtime) (code : CallTree .host) :
    AlwaysSettles runtime code ↔
      code.Throughout (receive runtime) Request.Fits (Replied runtime) := by
  constructor
  · intro settles
    by_contra unreplied
    have loses := loses_of_not_throughout code ready_idle sound_idle unreplied
    rw [← connected_eq_working] at loses
    exact not_alwaysSettles_of_loses loses settles
  · intro replied schedule connection ran
    rw [connected_eq_working] at ran
    obtain ⟨history, sound, path⟩ := runs_of_throughout code ready_idle sound_idle replied
    obtain ⟨settled, later, continued⟩ := path.of_run (finished_stuck _ history rfl) ran
    exact ⟨settled, later, _, continued, rfl, _, rfl⟩

/-! ## An exception that can not be written -/

def longMessage : JString := List.replicate 65536 97

def longException : Throwable :=
  .mk (Json.jstring "java.lang.IllegalStateException") (some longMessage) [] none []

/-- The host sends a message to the enclave, which throws an exception with a long message. -/
def longExceptionCall : CallTree .host :=
  .call ⟨(EnclaveCallType.CALL_MESSAGE_HANDLER : CallType .host), [], false⟩
    (.done (.error longException)) .done

theorem length_encodeUtf_replicate (count : Nat) :
    (encodeUtf (List.replicate count 97)).length = count := by
  have one : (encodeUnit 97).length = 1 := rfl
  rw [encodeUtf, List.length_flatMap, List.map_replicate, one]
  simp

theorem longMessage_unwritten : writeUTF longMessage = .error .utfDataFormat := by
  have long : (encodeUtf longMessage).length = 65536 := length_encodeUtf_replicate 65536
  rw [writeUTF, if_pos (by rw [long]; decide)]

theorem longExceptionCall_unanswered : ¬ AlwaysSettles exampleRuntime longExceptionCall := by
  refine not_alwaysSettles_of_loses ?_
  rw [connected_eq_working]
  refine loses_of_not_throughout _ ready_idle sound_idle ?_
  rintro ⟨entered, -⟩
  obtain ⟨-, bytes, serialised, -⟩ := entered (by decide)
  have unwritten : ThrowableSerialisation.writeNullableString (some longMessage) =
      .error .utfDataFormat := by
    rw [ThrowableSerialisation.writeNullableString, ThrowableSerialisation.writeString,
      longMessage_unwritten]
    rfl
  have failed : ThrowableSerialisation.writeChain longException = .error .utfDataFormat := by
    rw [longException, ThrowableSerialisation.writeChain, unwritten]
    rfl
  replace serialised : ThrowableSerialisation.serialise longException = .ok bytes := serialised
  rw [ThrowableSerialisation.serialise, failed] at serialised
  cases serialised

end Conclave.Calls.Socket
