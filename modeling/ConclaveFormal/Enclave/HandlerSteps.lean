import ConclaveFormal.Enclave.Handlers

/-!
# What the call handlers can do

`Move` says once what an activation can do when it goes on or ends, and `Effect` what a step of a
thread can do.
-/

set_option autoImplicit false

namespace Conclave.Enclave.Handlers

open Conclave.Lib

/-! ## What the phases mean -/

/-- A start past its transition. -/
def StartPhase.past : StartPhase → Bool
  | .locking _ | .transitioning _ => false
  | _ => true

def lockUse (env : EnclaveEnvironment) : LockUse Frame where
  holds
    | .start (.locking _) | .stop .locking => false
    | .start _ | .stop _ => true
    | .receive _ phase =>
        match phase with
        | .locking | .leaving => false
        | .calling | .receiving => !env.threadSafe
        | _ => true
    | .callback | .callUntrustedHost _ => false
  awaits
    | .stop (.awaiting _) => true
    | _ => false

/-- The activation waits for what is above it on the stack. -/
def Frame.suspended (frame : Frame) : Bool := frame.userCode || frame.inHost

/-- Past the check that the enclave is started and still under the lock of it. -/
def Frame.armed : Frame → Bool
  | .receive _ .preReceive | .receive _ .starting => true
  | _ => false

/-- `receiveMail` or `receiveFromUntrustedHost` has been invoked and not come back. -/
def Frame.receiving : Frame → Bool
  | .receive _ .receiving => true
  | _ => false

/-- Counted in `numberReceiveCallsExecuting`. -/
def Frame.counted (env : EnclaveEnvironment) : Frame → Bool
  | .receive _ .calling | .receive _ .receiving | .receive _ .leaving => env.threadSafe
  | _ => false

/-- The receive context is that of such an activation. -/
def Frame.inContext : Frame → Bool
  | .receive _ .calling | .receive _ .receiving => true
  | _ => false

/-! ## Moves -/

variable {Thread : Type}

/-- What most moves leave as it is. -/
structure Keeps (state next : State Thread) : Prop where
  calls : next.calls = state.calls
  enclaveState : next.enclaveState = state.enclaveState
  executing : next.numberReceiveCallsExecuting = state.numberReceiveCallsExecuting
  shutdown : next.onShutdownInvoked = state.onShutdownInvoked
  callStates : next.enclaveCalls = state.enclaveCalls

inductive Opens : Frame → Frame → Prop
  | start (parameterBuffer : Bytes) :
      Opens (.start (.locking parameterBuffer)) (.start (.transitioning parameterBuffer))
  | stop : Opens (.stop .locking) (.stop .transitioning)
  | receive (afterFailure : Bool) :
      Opens (.receive afterFailure .locking) (.receive afterFailure .checkingState)

/-- The activation goes on and only its own part of the state changes. -/
inductive GoesOn (env : EnclaveEnvironment) (enclaveState : EnclaveState) : Frame → Frame → Prop
  | start {phase phase' : StartPhase} (before : phase.past = true) (after : phase'.past = true) :
      GoesOn env enclaveState (.start phase) (.start phase')
  | checked (afterFailure : Bool) (started : enclaveState = .started) :
      GoesOn env enclaveState (.receive afterFailure .checkingState)
        (.receive afterFailure .preReceive)
  | preReceived (afterFailure : Bool) :
      GoesOn env enclaveState (.receive afterFailure .preReceive) (.receive afterFailure .starting)
  | began (afterFailure : Bool) (single : env.threadSafe = false) :
      GoesOn env enclaveState (.receive afterFailure .starting) (.receive afterFailure .calling)
  | called (afterFailure : Bool) :
      GoesOn env enclaveState (.receive afterFailure .calling) (.receive afterFailure .receiving)
  | returned (afterFailure : Bool) (multi : env.threadSafe = true) :
      GoesOn env enclaveState (.receive afterFailure .receiving) (.receive afterFailure .leaving)
  | sealing (afterFailure : Bool) (single : env.threadSafe = false) :
      GoesOn env enclaveState (.receive afterFailure .receiving) (.receive afterFailure .sealing)

/-- How the receive context changes when `frame` goes on. -/
def ContextMoves (env : EnclaveEnvironment) (before after : Bool) : Frame → Prop
  | .receive _ .starting =>
      after = before ∨ after = true ∧ env.threadSafe = false ∧ env.enablePersistentMap = true
  | .receive _ .receiving =>
      after = before ∧ (env.threadSafe = true ∨ env.enablePersistentMap = false) ∨ after = false
  | _ => after = before

/-- The exception of a start that has come to an end. -/
def Throws (frame : Frame) (state next : State Thread) : Prop :=
  next.startExceptions = state.startExceptions ∨
    ∃ phase e, frame = .start phase ∧ next.startExceptions = state.startExceptions ++ [e] ∧
      (phase.past = true ∨ e = .illegalState)

variable [DecidableEq Thread]

/-- Everything that an activation can do: the state behind it, and the frames in its place. -/
inductive Move (env : EnclaveEnvironment) (state : State Thread) (thread : Thread) :
    Frame → State Thread → List Frame → Prop
  | locked {frame frame' : Frame} {next : State Thread} (opens : Opens frame frame')
      (free : state.lock.available thread = true) (lock : next.lock = state.lock.acquire thread)
      (keeps : Keeps state next) (exceptions : next.startExceptions = state.startExceptions)
      (context : next.hasReceiveContext = state.hasReceiveContext) :
      Move env state thread frame next [frame']
  | goesOn {frame frame' : Frame} {next : State Thread}
      (goes : GoesOn env state.enclaveState frame frame') (lock : next.lock = state.lock)
      (keeps : Keeps state next) (exceptions : next.startExceptions = state.startExceptions)
      (context : ContextMoves env state.hasReceiveContext next.hasReceiveContext frame) :
      Move env state thread frame next [frame']
  | unlocked {frame : Frame} {next : State Thread} (holds : (lockUse env).holds frame = true)
      (wakes : (lockUse env).awaits frame = false) (uncounted : frame.counted env = false)
      (lock : next.lock = state.lock.release) (keeps : Keeps state next)
      (exceptions : Throws frame state next)
      (context : next.hasReceiveContext = state.hasReceiveContext ∧
        (frame.inContext = false ∨ env.enablePersistentMap = false) ∨
          next.hasReceiveContext = false) :
      Move env state thread frame next []
  | callbackReturned : Move env state thread .callback state []
  | hostReturned (previous : Callback) :
      Move env state thread (.callUntrustedHost previous)
        (state.setCallState thread (.receive previous)) []
  | started (parameterBuffer : Bytes) (new : state.enclaveState = .new) :
      Move env state thread (.start (.transitioning parameterBuffer))
        { state with enclaveState := .started } [.start (.reading parameterBuffer)]
  | closed (started : state.enclaveState = .started) :
      Move env state thread (.stop .transitioning) { state with enclaveState := .closed }
        [.stop .quiescing]
  | awaited (some_executing : 0 < state.numberReceiveCallsExecuting) :
      Move env state thread (.stop .quiescing) { state with lock := state.lock.releaseAll }
        [.stop (.awaiting (state.lock.heldBy thread))]
  | woken (holds : Nat) (free : state.lock.available thread = true) :
      Move env state thread (.stop (.awaiting holds))
        { state with lock := state.lock.acquireTimes thread holds } [.stop .quiescing]
  | invoked (quiescent : state.numberReceiveCallsExecuting = 0) :
      Move env state thread (.stop .quiescing) { state with onShutdownInvoked := true }
        [.stop .onShutdown]
  | counted (afterFailure : Bool) (multi : env.threadSafe = true) :
      Move env state thread (.receive afterFailure .starting)
        (({ state with numberReceiveCallsExecuting := state.numberReceiveCallsExecuting + 1 }
          : State Thread).release) [.receive afterFailure .calling]
  | uncounted (afterFailure : Bool) (free : state.lock.available thread = true) :
      Move env state thread (.receive afterFailure .leaving)
        { state with numberReceiveCallsExecuting := state.numberReceiveCallsExecuting - 1 } []

section Inversion

variable {env : EnclaveEnvironment} {state next : State Thread} {thread : Thread}
  {frames : List Frame} {succeeds returned : Bool}

omit [DecidableEq Thread] in
theorem Keeps.refl : Keeps state state := ⟨rfl, rfl, rfl, rfl, rfl⟩

theorem Move.ends {frame : Frame} (holds : (lockUse env).holds frame = true)
    (wakes : (lockUse env).awaits frame = false) (uncounted : frame.counted env = false)
    (outside : frame.inContext = false) : Move env state thread frame state.release [] :=
  .unlocked holds wakes uncounted rfl ⟨rfl, rfl, rfl, rfl, rfl⟩ (.inl rfl)
    (.inl ⟨rfl, .inl outside⟩)

theorem Move.startThrows {phase : StartPhase} {e : StartException}
    (holds : (lockUse env).holds (.start phase) = true)
    (why : phase.past = true ∨ e = .illegalState) :
    Move env state thread (.start phase) (state.throwStart e).release [] :=
  .unlocked holds rfl rfl rfl ⟨rfl, rfl, rfl, rfl, rfl⟩ (.inr ⟨phase, e, rfl, rfl, why⟩)
    (.inl ⟨rfl, .inl rfl⟩)

theorem advanceStart_move {phase : StartPhase}
    (ran : state.advanceStart thread env succeeds phase = some (next, frames)) :
    Move env state thread (.start phase) next frames := by
  cases phase with
  | locking parameterBuffer =>
      obtain ⟨free, moved⟩ := Option.ite_none_right_eq_some.mp ran
      cases moved
      exact .locked (.start parameterBuffer) free rfl ⟨rfl, rfl, rfl, rfl, rfl⟩ rfl rfl
  | transitioning parameterBuffer =>
      by_cases new : state.enclaveState = .new
      · rw [State.advanceStart, if_pos new] at ran
        cases ran
        exact .started parameterBuffer new
      · rw [State.advanceStart, if_neg new] at ran
        cases ran
        exact .startThrows rfl (.inr rfl)
  | reading parameterBuffer =>
      cases read : readSealedStateBlob parameterBuffer with
      | error e =>
          simp only [State.advanceStart, read] at ran
          cases ran
          exact .startThrows rfl (.inl rfl)
      | ok result =>
          simp only [State.advanceStart, read] at ran
          cases ran
          exact .goesOn (.start rfl rfl) rfl .refl rfl rfl
  | initialisingKey sealedStateBlob =>
      cases key : env.initialiseLocalPersistenceKeyIfNecessary state.aesPersistenceKey with
      | error e =>
          simp only [State.advanceStart, key] at ran
          cases ran
          exact .startThrows rfl (.inl rfl)
      | ok bytes =>
          simp only [State.advanceStart, key] at ran
          cases ran
          exact .goesOn (.start rfl rfl) rfl ⟨rfl, rfl, rfl, rfl, rfl⟩ rfl rfl
  | applying sealedStateBlob =>
      cases applied : env.applySealedState state.aesPersistenceKey state.persistent
          sealedStateBlob with
      | mk result persistent =>
          cases result with
          | error e =>
              simp only [State.advanceStart, applied] at ran
              cases ran
              exact .unlocked rfl rfl rfl rfl ⟨rfl, rfl, rfl, rfl, rfl⟩
                (.inr ⟨_, _, rfl, rfl, .inl rfl⟩) (.inl ⟨rfl, .inl rfl⟩)
          | ok _ =>
              simp only [State.advanceStart, applied] at ran
              cases ran
              exact .goesOn (.start rfl rfl) rfl ⟨rfl, rfl, rfl, rfl, rfl⟩ rfl rfl
  | settingUp =>
      by_cases set : env.setupFileSystems succeeds = true
      · rw [State.advanceStart, if_pos set] at ran
        cases ran
        exact .goesOn (.start rfl rfl) rfl .refl rfl rfl
      · rw [State.advanceStart, if_neg set] at ran
        cases ran
        exact .startThrows rfl (.inl rfl)
  | onStartup => cases ran

theorem advanceStop_move {phase : StopPhase}
    (ran : state.advanceStop thread phase = some (next, frames)) :
    Move env state thread (.stop phase) next frames := by
  cases phase with
  | locking =>
      obtain ⟨free, moved⟩ := Option.ite_none_right_eq_some.mp ran
      cases moved
      exact .locked .stop free rfl ⟨rfl, rfl, rfl, rfl, rfl⟩ rfl rfl
  | transitioning =>
      by_cases started : state.enclaveState = .started
      · rw [State.advanceStop, if_pos started] at ran
        cases ran
        exact .closed started
      · rw [State.advanceStop, if_neg started] at ran
        cases ran
        exact .ends rfl rfl rfl rfl
  | quiescing =>
      by_cases some_executing : state.numberReceiveCallsExecuting > 0
      · rw [State.advanceStop, if_pos some_executing] at ran
        cases ran
        exact .awaited some_executing
      · rw [State.advanceStop, if_neg some_executing] at ran
        cases ran
        exact .invoked (Nat.eq_zero_of_not_pos some_executing)
  | awaiting holds =>
      obtain ⟨free, moved⟩ := Option.ite_none_right_eq_some.mp ran
      cases moved
      exact .woken holds free
  | onShutdown => cases ran

theorem startReceive_move {afterFailure : Bool}
    (ran : state.startReceive env afterFailure = (next, frames)) :
    Move env state thread (.receive afterFailure .starting) next frames := by
  by_cases multi : env.threadSafe = true
  · simp only [State.startReceive, if_pos multi] at ran
    cases ran
    exact .counted afterFailure multi
  · have single : env.threadSafe = false := by simpa using multi
    by_cases map : env.enablePersistentMap = true
    · by_cases context : state.hasReceiveContext = true
      · simp only [State.startReceive, if_neg multi, if_pos map, if_pos context] at ran
        cases ran
        exact .ends rfl rfl rfl rfl
      · simp only [State.startReceive, if_neg multi, if_pos map, if_neg context] at ran
        cases ran
        exact .goesOn (.began afterFailure single) rfl ⟨rfl, rfl, rfl, rfl, rfl⟩ rfl
          (.inr ⟨rfl, single, map⟩)
    · simp only [State.startReceive, if_neg multi, if_neg map] at ran
      cases ran
      exact .goesOn (.began afterFailure single) rfl .refl rfl (.inl rfl)

theorem advanceReceive_move {afterFailure : Bool} {phase : ReceivePhase}
    (ran : state.advanceReceive thread env succeeds afterFailure phase = some (next, frames)) :
    Move env state thread (.receive afterFailure phase) next frames := by
  cases phase with
  | locking =>
      obtain ⟨free, moved⟩ := Option.ite_none_right_eq_some.mp ran
      cases moved
      exact .locked (.receive afterFailure) free rfl ⟨rfl, rfl, rfl, rfl, rfl⟩ rfl rfl
  | checkingState =>
      by_cases started : state.enclaveState = .started
      · rw [State.advanceReceive, if_pos started] at ran
        cases ran
        exact .goesOn (.checked afterFailure started) rfl .refl rfl rfl
      · rw [State.advanceReceive, if_neg started] at ran
        cases ran
        exact .ends rfl rfl rfl rfl
  | preReceive =>
      cases succeeds with
      | true =>
          cases ran
          exact .goesOn (.preReceived afterFailure) rfl .refl rfl rfl
      | false =>
          cases ran
          exact .ends rfl rfl rfl rfl
  | starting => exact startReceive_move (Option.some.inj ran)
  | calling =>
      cases ran
      exact .goesOn (.called afterFailure) rfl .refl rfl rfl
  | receiving => cases ran
  | sealing =>
      cases ran
      exact .ends rfl rfl rfl rfl
  | leaving =>
      obtain ⟨free, moved⟩ := Option.ite_none_right_eq_some.mp ran
      cases moved
      exact .uncounted afterFailure free

theorem advance_move {frame : Frame}
    (ran : state.advance thread env succeeds frame = some (next, frames)) :
    Move env state thread frame next frames := by
  cases frame with
  | start phase => exact advanceStart_move ran
  | stop phase => exact advanceStop_move ran
  | receive afterFailure phase => exact advanceReceive_move ran
  | callback => cases ran
  | callUntrustedHost previous => cases ran

theorem finishReceive_move {afterFailure : Bool}
    (ran : state.finishReceive env returned afterFailure = (next, frames)) :
    Move env state thread (.receive afterFailure .receiving) next frames := by
  by_cases multi : env.threadSafe = true
  · rw [State.finishReceive, if_pos multi] at ran
    cases ran
    exact .goesOn (.returned afterFailure multi) rfl .refl rfl (.inl ⟨rfl, .inl multi⟩)
  · have single : env.threadSafe = false := by simpa using multi
    have holds : (lockUse env).holds (.receive afterFailure .receiving) = true := by
      simp [lockUse, single]
    by_cases map : env.enablePersistentMap = true
    · cases returned with
      | true =>
          simp only [State.finishReceive, if_neg multi, if_pos map, ↓reduceIte] at ran
          cases ran
          exact .goesOn (.sealing afterFailure single) rfl ⟨rfl, rfl, rfl, rfl, rfl⟩ rfl (.inr rfl)
      | false =>
          simp only [State.finishReceive, if_neg multi, if_pos map, Bool.false_eq_true,
            ↓reduceIte] at ran
          cases ran
          exact .unlocked holds rfl single rfl ⟨rfl, rfl, rfl, rfl, rfl⟩ (.inl rfl) (.inr rfl)
    · simp only [State.finishReceive, if_neg multi, if_neg map] at ran
      cases ran
      have off : env.enablePersistentMap = false := by simpa using map
      exact .unlocked holds rfl single rfl ⟨rfl, rfl, rfl, rfl, rfl⟩ (.inl rfl)
        (.inl ⟨rfl, .inr off⟩)

theorem finish_move {frame : Frame}
    (ran : state.finish thread env returned frame = some (next, frames)) :
    Move env state thread frame next frames := by
  cases frame with
  | start phase =>
      cases phase with
      | onStartup =>
          cases returned with
          | true =>
              cases ran
              exact .ends rfl rfl rfl rfl
          | false =>
              cases ran
              exact .startThrows rfl (.inl rfl)
      | _ => cases ran
  | stop phase =>
      cases phase with
      | onShutdown =>
          cases ran
          exact .ends rfl rfl rfl rfl
      | _ => cases ran
  | receive afterFailure phase =>
      cases phase with
      | receiving => exact finishReceive_move (Option.some.inj ran)
      | _ => cases ran
  | callback =>
      cases ran
      exact .callbackReturned
  | callUntrustedHost previous =>
      cases ran
      exact .hostReturned previous

end Inversion

/-! ## Steps -/

/-- A frame that a call puts on top of the stack of its thread. -/
inductive Entry (env : EnclaveEnvironment) (state : State Thread) (thread : Thread)
    (action : Action) : Frame → Prop
  | start (parameterBuffer : Bytes) (accepted : env.refusesStart = false) :
      Entry env state thread action (.start (.locking parameterBuffer))
  | stop (isStop : action = .stop) : Entry env state thread action (.stop .locking)
  | receive : Entry env state thread action (.receive state.startFailed .locking)
  | callback (given : state.enclaveCalls thread = some (.receive .given)) :
      Entry env state thread action .callback
  | callUntrustedHost (previous : Callback) {frame : Frame} {rest : List Frame}
      (top : state.calls thread = frame :: rest) (userCode : frame.userCode = true) :
      Entry env state thread action (.callUntrustedHost previous)

/-- Calls receive the host's calls in a callback only if the user's code has said so. -/
def GivenBy (state : State Thread) (thread : Thread) (next : State Thread) : Prop :=
  ∀ other, next.enclaveCalls other = some (.receive .given) →
    state.enclaveCalls other = some (.receive .given) ∨
      ∃ frame rest, state.calls thread = frame :: rest ∧ frame.userCode = true

/-- The action by which an activation goes on or its user's code ends. -/
def Action.goesOn (succeeds : Bool) (action : Action) : Prop :=
  action = .advance succeeds ∨ action = .finish succeeds

/-- Everything that a step of `thread` can do. -/
inductive Effect (env : EnclaveEnvironment) (state : State Thread) (thread : Thread)
    (action : Action) (next : State Thread) : Prop
  | idle (calls : next.calls = state.calls) (lock : next.lock = state.lock)
      (enclaveState : next.enclaveState = state.enclaveState)
      (executing : next.numberReceiveCallsExecuting = state.numberReceiveCallsExecuting)
      (shutdown : next.onShutdownInvoked = state.onShutdownInvoked)
      (context : next.hasReceiveContext = state.hasReceiveContext)
      (exceptions : next.startExceptions = state.startExceptions ∨ env.refusesStart = true ∧
        next.startExceptions = state.startExceptions ++ [.notAvailableInMultiThreaded])
      (given : GivenBy state thread next)
  | pushed (frame : Frame) (entry : Entry env state thread action frame)
      (suspended : ∀ top rest, state.calls thread = top :: rest → top.suspended = true)
      (calls : next.calls = Function.update state.calls thread (frame :: state.calls thread))
      (lock : next.lock = state.lock) (enclaveState : next.enclaveState = state.enclaveState)
      (executing : next.numberReceiveCallsExecuting = state.numberReceiveCallsExecuting)
      (shutdown : next.onShutdownInvoked = state.onShutdownInvoked)
      (context : next.hasReceiveContext = state.hasReceiveContext)
      (exceptions : next.startExceptions = state.startExceptions)
      (given : GivenBy state thread next)
  | moved (frame : Frame) (rest : List Frame) (top : state.calls thread = frame :: rest)
      (middle : State Thread) (frames : List Frame)
      (move : Move env state thread frame middle frames)
      (replaced : next = middle.setStack thread (frames ++ rest)) (succeeds : Bool)
      (goesOn : action.goesOn succeeds)

section Steps

variable {env : EnclaveEnvironment} {state next : State Thread} {thread : Thread}
  {action : Action}

omit [DecidableEq Thread] in
theorem suspended_of_canEnter (canEnter : state.canEnter thread = true) (top : Frame)
    (rest : List Frame) (calls : state.calls thread = top :: rest) : top.suspended = true := by
  simp only [State.canEnter, calls] at canEnter
  rw [Frame.suspended, canEnter, Bool.or_true]

omit [DecidableEq Thread] in
theorem givenBy_of_same (same : next.enclaveCalls = state.enclaveCalls) :
    GivenBy state thread next := by
  intro other given
  rw [same] at given
  exact .inl given

theorem givenBy_receiveMessage : GivenBy state thread (state.receiveMessage thread) := by
  intro other given
  left
  by_cases own : other = thread
  · subst own
    rw [State.enclaveCalls_receiveMessage, Function.update_self] at given
    cases before : state.enclaveCalls other with
    | none =>
        rw [before] at given
        cases given
    | some callState =>
        rw [before] at given
        exact given
  · rw [State.enclaveCalls_receiveMessage, Function.update_of_ne own] at given
    exact given

omit [DecidableEq Thread] in
theorem givenBy_userCode {frame : Frame} {rest : List Frame}
    (top : state.calls thread = frame :: rest) (userCode : frame.userCode = true) :
    GivenBy state thread next :=
  fun _ _ => .inr ⟨frame, rest, top, userCode⟩

theorem handleStart_effect {parameterBuffer : Bytes} (canEnter : state.canEnter thread = true) :
    Effect env state thread action (state.handleStart thread env parameterBuffer) := by
  by_cases refused : env.refusesStart = true
  · rw [State.handleStart, if_pos refused]
    exact .idle rfl rfl rfl rfl rfl rfl (.inr ⟨refused, rfl⟩) (givenBy_of_same rfl)
  · rw [State.handleStart, if_neg refused]
    have accepted : env.refusesStart = false := by simpa using refused
    exact .pushed _ (.start parameterBuffer accepted) (suspended_of_canEnter canEnter) rfl rfl rfl
      rfl rfl rfl rfl (givenBy_of_same rfl)

theorem handleSetKdsPersistenceKey_effect {response : Option (Option Bytes)} :
    Effect env state thread action (state.handleSetKdsPersistenceKey env response) := by
  unfold State.handleSetKdsPersistenceKey
  split
  · exact .idle rfl rfl rfl rfl rfl rfl (.inl rfl) (givenBy_of_same rfl)
  · split <;> exact .idle rfl rfl rfl rfl rfl rfl (.inl rfl) (givenBy_of_same rfl)

theorem onMail_effect {decrypts : Bool} (canEnter : state.canEnter thread = true) :
    Effect env state thread action ((state.receiveMessage thread).onMail thread decrypts) := by
  cases decrypts with
  | true =>
      exact .pushed _ .receive (suspended_of_canEnter canEnter) rfl rfl rfl rfl rfl rfl rfl
        givenBy_receiveMessage
  | false => exact .idle rfl rfl rfl rfl rfl rfl (.inl rfl) givenBy_receiveMessage

theorem onUntrustedHost_effect (canEnter : state.canEnter thread = true) :
    Effect env state thread action ((state.receiveMessage thread).onUntrustedHost thread env) := by
  have idle : Effect env state thread action (state.receiveMessage thread) :=
    .idle rfl rfl rfl rfl rfl rfl (.inl rfl) givenBy_receiveMessage
  unfold State.onUntrustedHost
  split
  · exact .pushed _ .receive (suspended_of_canEnter canEnter) rfl rfl rfl rfl rfl rfl rfl
      givenBy_receiveMessage
  · rename_i given
    have before : state.enclaveCalls thread = some (.receive .given) := by
      cases found : state.enclaveCalls thread with
      | none => simp [State.receiveMessage, found] at given
      | some callState => simpa [State.receiveMessage, found] using given
    split
    · exact .pushed _ (.callback before) (suspended_of_canEnter canEnter) rfl rfl rfl rfl rfl rfl
        rfl givenBy_receiveMessage
    · exact idle
  · exact idle

theorem callOut_effect {withCallback : Bool} {frame : Frame} {rest : List Frame}
    (top : state.calls thread = frame :: rest) (userCode : frame.userCode = true) :
    Effect env state thread action (state.callOut thread withCallback) := by
  have suspended : ∀ other below, state.calls thread = other :: below →
      other.suspended = true := by
    intro other below calls
    rw [top] at calls
    cases calls
    rw [Frame.suspended, userCode, Bool.true_or]
  unfold State.callOut
  split
  · exact .pushed _ (.callUntrustedHost _ top userCode) suspended rfl rfl rfl rfl rfl rfl rfl
      (givenBy_userCode top userCode)
  · exact .idle rfl rfl rfl rfl rfl rfl (.inl rfl) (givenBy_of_same rfl)

theorem callReturn_effect :
    Effect env state thread action (state.setCallState thread .response) := by
  refine .idle rfl rfl rfl rfl rfl rfl (.inl rfl) ?_
  intro other given
  left
  by_cases own : other = thread
  · rw [own, State.enclaveCalls_setCallState, Function.update_self] at given
    cases given
  · rw [State.enclaveCalls_setCallState, Function.update_of_ne own] at given
    exact given

theorem step_advance {frame : Frame} {rest replacing : List Frame} {middle : State Thread}
    {succeeds : Bool} (top : state.calls thread = frame :: rest)
    (ran : state.advance thread env succeeds frame = some (middle, replacing)) :
    step env state (thread, .advance succeeds) =
      some (middle.setStack thread (replacing ++ rest)) := by
  simp only [step, top, ran]
  rfl

theorem step_effect (stepped : step env state (thread, action) = some next) :
    Effect env state thread action next := by
  cases action with
  | start parameterBuffer =>
      obtain ⟨canEnter, entered⟩ := Option.ite_none_right_eq_some.mp stepped
      cases entered
      exact handleStart_effect canEnter
  | stop =>
      obtain ⟨canEnter, entered⟩ := Option.ite_none_right_eq_some.mp stepped
      cases entered
      exact .pushed _ (.stop rfl) (suspended_of_canEnter canEnter) rfl rfl rfl rfl rfl rfl rfl
        (givenBy_of_same rfl)
  | setKdsPersistenceKey response =>
      obtain ⟨canEnter, entered⟩ := Option.ite_none_right_eq_some.mp stepped
      cases entered
      exact handleSetKdsPersistenceKey_effect
  | mail decrypts =>
      obtain ⟨canEnter, entered⟩ := Option.ite_none_right_eq_some.mp stepped
      cases entered
      exact onMail_effect canEnter
  | untrustedHost =>
      obtain ⟨canEnter, entered⟩ := Option.ite_none_right_eq_some.mp stepped
      cases entered
      exact onUntrustedHost_effect canEnter
  | callReturn =>
      rw [step] at stepped
      split at stepped
      · cases stepped
        exact callReturn_effect
      · cases stepped
  | advance succeeds =>
      rw [step] at stepped
      cases top : state.calls thread with
      | nil =>
          rw [top] at stepped
          cases stepped
      | cons frame rest =>
          rw [top] at stepped
          obtain ⟨⟨middle, frames⟩, ran, rfl⟩ := Option.map_eq_some_iff.mp stepped
          exact .moved frame rest top middle frames (advance_move ran) rfl succeeds (.inl rfl)
  | callUntrustedHost withCallback =>
      rw [step] at stepped
      cases top : state.calls thread with
      | nil =>
          rw [top] at stepped
          cases stepped
      | cons frame rest =>
          rw [top] at stepped
          obtain ⟨userCode, called⟩ := Option.ite_none_right_eq_some.mp stepped
          cases called
          exact callOut_effect top userCode
  | finish returned =>
      rw [step] at stepped
      cases top : state.calls thread with
      | nil =>
          rw [top] at stepped
          cases stepped
      | cons frame rest =>
          rw [top] at stepped
          obtain ⟨⟨middle, frames⟩, ran, rfl⟩ := Option.map_eq_some_iff.mp stepped
          exact .moved frame rest top middle frames (finish_move ran) rfl returned (.inr rfl)

end Steps

end Conclave.Enclave.Handlers
