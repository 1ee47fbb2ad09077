import ConclaveFormal.Enclave.HandlerInvariant

/-!
# Quiescence at shutdown

An enclave waits for the receives that are in progress before it invokes `onShutdown`: one that is
thread safe until its counter is zero, any other by the lock that the receives hold.  A host that
stops the latter from within a receive has that lock already.
-/

set_option autoImplicit false

namespace Conclave.Enclave.Handlers

open Conclave.Lib

variable {Thread : Type}

/-- Some thread is in `receiveMail` or in `receiveFromUntrustedHost`. -/
def Receiving (state : State Thread) : Prop :=
  ∃ thread, ∃ frame ∈ state.calls thread, frame.receiving = true

def Quiescent (state : State Thread) : Prop :=
  state.onShutdownInvoked = true → ¬ Receiving state

/-- Where the enclave is not thread safe, a thread does not stop it from within a receive. -/
def StopsOutside (env : EnclaveEnvironment) (state : State Thread) : Thread × Action → Prop
  | (thread, .stop) =>
      state.enclaveState = .started → env.threadSafe = true ∨
        ∀ frame ∈ state.calls thread, frame.receiving = false
  | _ => True

theorem stopsOutside_of_ne {env : EnclaveEnvironment} {input : Thread × Action}
    (other : input.2 ≠ .stop) (state : State Thread) : StopsOutside env state input := by
  obtain ⟨thread, action⟩ := input
  cases action with
  | stop => exact absurd rfl other
  | _ => trivial

/-! ## What holds of a stop and behind it -/

/-- A stop has no receive to wait for below itself. -/
def StopOk (env : EnclaveEnvironment) (enclaveState : EnclaveState) (below : List Frame) :
    Frame → Prop
  | .stop phase =>
      match phase with
      | .locking | .transitioning =>
          enclaveState = .closed ∨ env.threadSafe = true ∨ ∀ frame ∈ below, frame.receiving = false
      | .quiescing => env.threadSafe = true ∨ ∀ frame ∈ below, frame.receiving = false
      | .awaiting _ | .onShutdown => True
  | _ => True

structure Shutdown (env : EnclaveEnvironment) (state : State Thread) : Prop where
  stops : ∀ thread, EachAbove (StopOk env state.enclaveState) (state.calls thread)
  behind : state.onShutdownInvoked = true → state.enclaveState = .closed ∧
    ∀ thread, ∀ frame ∈ state.calls thread, frame.inContext = false

section Run

variable [DecidableEq Thread] {env : EnclaveEnvironment} {state next middle : State Thread}
  {thread : Thread} {action : Action} {frame frame' : Frame} {rest replacing : List Frame}

theorem inContext_of_receiving (receiving : frame.receiving = true) : frame.inContext = true := by
  cases frame with
  | receive afterFailure phase =>
      cases phase with
      | receiving => rfl
      | _ => cases receiving
  | _ => cases receiving

omit [DecidableEq Thread] in
theorem Shutdown.quiescent (shutdown : Shutdown env state) : Quiescent state := by
  rintro invoked ⟨thread, frame, member, receiving⟩
  have outside := (shutdown.behind invoked).2 thread frame member
  rw [inContext_of_receiving receiving] at outside
  cases outside

omit [DecidableEq Thread] in
theorem shutdown_initial (env : EnclaveEnvironment) : Shutdown env (State.initial Thread) where
  stops _ := trivial
  behind invoked := by cases invoked

theorem StopOk.later {enclaveState enclaveState' : EnclaveState} {below : List Frame}
    (ok : StopOk env enclaveState below frame)
    (closed : enclaveState = .closed → enclaveState' = .closed) :
    StopOk env enclaveState' below frame := by
  cases frame with
  | stop phase =>
      cases phase with
      | locking => exact ok.imp_left closed
      | transitioning => exact ok.imp_left closed
      | quiescing => exact ok
      | awaiting holds => exact ok
      | onShutdown => trivial
  | _ => trivial

/-- The frame that takes the place of a stop that goes on. -/
theorem Move.stopOk (sound : Sound env state) (top : state.calls thread = frame :: rest)
    (ok : StopOk env state.enclaveState rest frame)
    (move : Move env state thread frame middle replacing) (added : frame' ∈ replacing) :
    StopOk env middle.enclaveState rest frame' := by
  cases move with
  | locked opens _ _ keeps =>
      cases List.mem_singleton.mp added
      cases opens with
      | start parameterBuffer => trivial
      | stop =>
          rw [keeps.enclaveState]
          exact ok
      | receive afterFailure => trivial
  | goesOn goes =>
      cases List.mem_singleton.mp added
      cases goes <;> trivial
  | closed started =>
      cases List.mem_singleton.mp added
      rcases ok with closed | outside
      · rw [started] at closed
        cases closed
      · exact outside
  | awaited some_executing =>
      cases List.mem_singleton.mp added
      trivial
  | woken holds free =>
      cases List.mem_singleton.mp added
      exact .inl (sound.frameOk top).1.2.2
  | started parameterBuffer new =>
      cases List.mem_singleton.mp added
      trivial
  | invoked quiescent =>
      cases List.mem_singleton.mp added
      trivial
  | counted afterFailure multi =>
      cases List.mem_singleton.mp added
      trivial
  | unlocked => cases added
  | callbackReturned => cases added
  | hostReturned => cases added
  | uncounted => cases added

/-! ### Nothing is in progress when `onShutdown` is invoked -/

theorem Sound.none_executing (sound : Sound env state)
    (quiescent : state.numberReceiveCallsExecuting = 0) (other : Thread) :
    ∀ frame ∈ state.calls other, frame.counted env = false := by
  obtain ⟨receivers, length, counts⟩ := sound.executing
  have none : receivers = [] := List.eq_nil_of_length_eq_zero (length.trans quiescent)
  have zero := counts other
  rw [none, List.count_nil] at zero
  intro frame member
  have uncounted := List.countP_eq_zero.mp zero.symm frame member
  simpa using uncounted

theorem counted_of_inContext (multi : env.threadSafe = true) (inContext : frame.inContext = true) :
    frame.counted env = true := by
  cases frame with
  | receive afterFailure phase =>
      cases phase with
      | calling => exact multi
      | receiving => exact multi
      | _ => cases inContext
  | _ => cases inContext

theorem receiving_of_suspended (suspended : frame.suspended = true)
    (inContext : frame.inContext = true) : frame.receiving = true := by
  cases frame with
  | receive afterFailure phase =>
      cases phase with
      | receiving => rfl
      | calling => cases suspended
      | _ => cases inContext
  | _ => cases inContext

/-- The stop that is about to invoke `onShutdown` has waited for every receive. -/
theorem Shutdown.none_inContext (sound : Sound env state) (shutdown : Shutdown env state)
    (top : state.calls thread = .stop .quiescing :: rest)
    (quiescent : state.numberReceiveCallsExecuting = 0) (other : Thread) :
    ∀ frame ∈ state.calls other, frame.inContext = false := by
  intro frame member
  by_contra inContext
  rw [Bool.not_eq_false] at inContext
  have ok := shutdown.stops thread
  rw [top] at ok
  rcases ok.1 with multi | outside
  · have uncounted := sound.none_executing quiescent other frame member
    rw [counted_of_inContext multi inContext] at uncounted
    cases uncounted
  · by_cases multi : env.threadSafe = true
    · have uncounted := sound.none_executing quiescent other frame member
      rw [counted_of_inContext multi inContext] at uncounted
      cases uncounted
    · have single : env.threadSafe = false := by simpa using multi
      have holds : 0 < (lockUse env).held (state.calls thread) := by
        rw [held_top top rfl]
        exact Nat.succ_pos _
      have same := sound.lock.exclusive
        (sound.held_of_inContext single member inContext) holds
      rw [same, top] at member
      rcases List.mem_cons.mp member with rfl | under
      · cases inContext
      · have receiving := receiving_of_suspended (sound.suspended top frame under) inContext
        rw [outside frame under] at receiving
        cases receiving

/-- In an enclave that is closed no activation gets as far as the receive method. -/
theorem Move.inContext (sound : Sound env state) (top : state.calls thread = frame :: rest)
    (move : Move env state thread frame middle replacing) (closed : state.enclaveState = .closed)
    (outside : frame.inContext = false) (added : frame' ∈ replacing) :
    frame'.inContext = false := by
  have ok := (sound.frameOk top).1
  cases move with
  | locked opens =>
      cases List.mem_singleton.mp added
      cases opens <;> rfl
  | goesOn goes =>
      cases List.mem_singleton.mp added
      cases goes with
      | began afterFailure single =>
          rw [show state.enclaveState = .started from ok.2] at closed
          cases closed
      | called afterFailure => cases outside
      | _ => rfl
  | counted afterFailure multi =>
      rw [show state.enclaveState = .started from ok.2] at closed
      cases closed
  | started parameterBuffer new =>
      cases List.mem_singleton.mp added
      rfl
  | closed started =>
      cases List.mem_singleton.mp added
      rfl
  | awaited some_executing =>
      cases List.mem_singleton.mp added
      rfl
  | woken holds free =>
      cases List.mem_singleton.mp added
      rfl
  | invoked quiescent =>
      cases List.mem_singleton.mp added
      rfl
  | unlocked => cases added
  | callbackReturned => cases added
  | hostReturned => cases added
  | uncounted => cases added

/-- `onShutdown` is invoked by the stop that has waited, and by nothing else. -/
theorem Move.shutdownInvoked (move : Move env state thread frame middle replacing)
    (invoked : middle.onShutdownInvoked = true) :
    state.onShutdownInvoked = true ∨
      frame = .stop .quiescing ∧ state.numberReceiveCallsExecuting = 0 := by
  cases move with
  | locked _ _ _ keeps => exact .inl (keeps.shutdown ▸ invoked)
  | goesOn _ _ keeps => exact .inl (keeps.shutdown ▸ invoked)
  | unlocked _ _ _ _ keeps => exact .inl (keeps.shutdown ▸ invoked)
  | invoked quiescent => exact .inr ⟨rfl, quiescent⟩
  | _ => exact .inl invoked

theorem Shutdown.moved (sound : Sound env state) (shutdown : Shutdown env state)
    (top : state.calls thread = frame :: rest)
    (move : Move env state thread frame middle replacing) :
    Shutdown env (middle.setStack thread (replacing ++ rest)) := by
  have moved : (middle.setStack thread (replacing ++ rest)).calls =
      Function.update state.calls thread (replacing ++ rest) := by
    rw [State.calls_setStack, move.calls]
  have own := shutdown.stops thread
  rw [top] at own
  have stillClosed := move.stillClosed
  refine ⟨?_, ?_⟩
  · intro other
    rw [moved]
    by_cases same : other = thread
    · rw [same, Function.update_self]
      have added : ∀ frame' ∈ replacing, StopOk env middle.enclaveState rest frame' :=
        fun _ => move.stopOk sound top own.1
      exact .replace move.single added (own.2.imp fun _ _ _ ok => ok.later stillClosed)
    · rw [Function.update_of_ne same]
      exact (shutdown.stops other).imp fun _ _ _ ok => ok.later stillClosed
  · intro invoked
    have before : state.enclaveState = .closed ∧
        ∀ other, ∀ frame ∈ state.calls other, frame.inContext = false := by
      rcases move.shutdownInvoked invoked with already | ⟨rfl, quiescent⟩
      · exact shutdown.behind already
      · exact ⟨(sound.frameOk top).1, shutdown.none_inContext sound top quiescent⟩
    refine ⟨stillClosed before.1, ?_⟩
    intro other frame' member
    have frames := before.2 thread
    rw [top] at frames
    rw [moved] at member
    by_cases same : other = thread
    · rw [same, Function.update_self] at member
      rcases List.mem_append.mp member with added | under
      · exact move.inContext sound top before.1 (frames frame List.mem_cons_self) added
      · exact frames frame' (List.mem_cons_of_mem _ under)
    · rw [Function.update_of_ne same] at member
      exact before.2 other frame' member

omit [DecidableEq Thread] in
theorem Shutdown.idle (shutdown : Shutdown env state) (calls : next.calls = state.calls)
    (enclaveState : next.enclaveState = state.enclaveState)
    (invoked : next.onShutdownInvoked = state.onShutdownInvoked) : Shutdown env next where
  stops other := by
    rw [calls, enclaveState]
    exact shutdown.stops other
  behind := by
    rw [calls, enclaveState, invoked]
    exact shutdown.behind

theorem Shutdown.pushed (shutdown : Shutdown env state)
    (ok : StopOk env state.enclaveState (state.calls thread) frame)
    (outside : frame.inContext = false)
    (calls : next.calls = Function.update state.calls thread (frame :: state.calls thread))
    (enclaveState : next.enclaveState = state.enclaveState)
    (invoked : next.onShutdownInvoked = state.onShutdownInvoked) : Shutdown env next where
  stops other := by
    rw [calls, enclaveState]
    by_cases own : other = thread
    · rw [own, Function.update_self]
      exact ⟨ok, shutdown.stops thread⟩
    · rw [Function.update_of_ne own]
      exact shutdown.stops other
  behind isOver := by
    rw [invoked] at isOver
    obtain ⟨closed, none⟩ := shutdown.behind isOver
    refine ⟨enclaveState.trans closed, ?_⟩
    intro other frame' member
    rw [calls] at member
    by_cases own : other = thread
    · rw [own, Function.update_self] at member
      rcases List.mem_cons.mp member with rfl | under
      · exact outside
      · exact none thread frame' under
    · rw [Function.update_of_ne own] at member
      exact none other frame' member

/-- A stop that is called from outside of the receives of its thread, or that finds the enclave
closed. -/
theorem Sound.entryStopOk (sound : Sound env state)
    (outside : StopsOutside env state (thread, .stop)) :
    StopOk env state.enclaveState (state.calls thread) (.stop .locking) := by
  cases enclaveState : state.enclaveState with
  | new =>
      refine .inr (.inr ?_)
      intro frame member
      by_contra receiving
      rw [Bool.not_eq_false] at receiving
      obtain ⟨below, ok⟩ := (sound.frames thread).of_mem member
      have suspended : frame.suspended = true := by
        cases frame with
        | receive afterFailure phase =>
            cases phase with
            | receiving => rfl
            | _ => cases receiving
        | _ => cases receiving
      exact not_new_of_suspended ok suspended enclaveState
  | started => exact .inr (outside enclaveState)
  | closed => exact .inl rfl

theorem Shutdown.step (sound : Sound env state) (shutdown : Shutdown env state)
    (outside : StopsOutside env state (thread, action))
    (stepped : step env state (thread, action) = some next) : Shutdown env next := by
  cases step_effect stepped with
  | idle calls lock enclaveState executing invoked =>
      exact shutdown.idle calls enclaveState invoked
  | pushed frame entry suspended calls lock enclaveState executing invoked =>
      refine shutdown.pushed ?_ ?_ calls enclaveState invoked
      · cases entry with
        | stop isStop =>
            rw [isStop] at outside
            exact sound.entryStopOk outside
        | _ => trivial
      · cases entry <;> rfl
  | moved frame rest top middle frames move replaced =>
      rw [replaced]
      exact shutdown.moved sound top move

/-- If every stop comes from outside of the receives, then nothing is in progress from the
invocation of `onShutdown` on. -/
theorem quiescent_of_meets {inputs : List (Thread × Action)} {final : State Thread}
    (meets : Meets (step env) (StopsOutside env) (State.initial Thread) inputs)
    (ran : run (step env) (State.initial Thread) inputs = some final) : Quiescent final := by
  have both : Sound env final ∧ Shutdown env final := by
    refine @run_invariant_of_meets _ _ (Handlers.step env)
      (fun state => Sound env state ∧ Shutdown env state) _ ?_ inputs _ final
      ⟨sound_initial env, shutdown_initial env⟩ meets ran
    rintro state ⟨thread, action⟩ next ⟨sound, shutdown⟩ outside stepped
    exact ⟨sound.step stepped, shutdown.step sound outside stepped⟩
  exact both.2.quiescent

/-! ## A stop from within a receive -/

/-- The thread has the lock, so the stop goes through to `onShutdown` below which the receive is
still in progress. -/
theorem Sound.stop_within (sound : Sound env state) (canEnter : state.canEnter thread = true)
    (within : ¬ StopsOutside env state (thread, .stop)) :
    ∃ later final, run (Handlers.step env) state ((thread, .stop) :: later) = some final ∧
      ¬ Quiescent final := by
  simp only [StopsOutside, not_forall, not_or, Bool.not_eq_true, Bool.not_eq_false] at within
  obtain ⟨started, single, frame, member, receiving⟩ := within
  have waiting := sound.suspended_all (suspended_of_canEnter canEnter)
  have held : 0 < state.lock.heldBy thread := by
    rw [sound.lock thread, LockUse.held_of_none fun other among =>
      awaits_of_suspended (waiting other among)]
    refine LockUse.count_pos member ?_
    cases frame with
    | receive afterFailure phase =>
        cases phase with
        | receiving => simp [lockUse, single]
        | _ => cases receiving
    | _ => cases receiving
  let stopping := state.push thread (.stop .locking)
  let locked := (stopping.acquire thread).setStack thread
    ([.stop .transitioning] ++ state.calls thread)
  let closed := ({ locked with enclaveState := .closed } : State Thread).setStack thread
    ([.stop .quiescing] ++ state.calls thread)
  let invoked := ({ closed with onShutdownInvoked := true } : State Thread).setStack thread
    ([.stop .onShutdown] ++ state.calls thread)
  have called : Handlers.step env state (thread, .stop) = some stopping := if_pos canEnter
  have locking : Handlers.step env stopping (thread, .advance true) = some locked := by
    apply step_advance (Function.update_self ..)
    exact if_pos (ReentrantLock.available_self held)
  have closing : Handlers.step env locked (thread, .advance true) = some closed := by
    apply step_advance (Function.update_self ..)
    exact if_pos started
  have invoking : Handlers.step env closed (thread, .advance true) = some invoked := by
    apply step_advance (Function.update_self ..)
    refine if_neg ?_
    change ¬ state.numberReceiveCallsExecuting > 0
    rw [sound.not_executing single]
    exact Nat.lt_irrefl 0
  refine ⟨[(thread, .advance true), (thread, .advance true), (thread, .advance true)], invoked,
    ?_, ?_⟩
  · rw [run, called, Option.bind_some, run, locking, Option.bind_some, run, closing,
      Option.bind_some, run, invoking, Option.bind_some, run]
  · intro quiescent
    refine quiescent rfl ⟨thread, frame, ?_, receiving⟩
    rw [State.calls_setStack, Function.update_self]
    exact List.mem_cons_of_mem _ member

end Run

/-! ## Shutdown in every run -/

/-- Nothing is in progress from the invocation of `onShutdown` on in a run whose stops all come
from outside of the receives.  Each other stop can bring `onShutdown` into a receive. -/
theorem shutdown_quiescent [DecidableEq Thread] (env : EnclaveEnvironment) :
    (∀ inputs final, Meets (step env) (StopsOutside env) (State.initial Thread) inputs →
        run (step env) (State.initial Thread) inputs = some final → Quiescent final) ∧
      ∀ inputs state thread, run (step env) (State.initial Thread) inputs = some state →
        state.canEnter thread = true → ¬ StopsOutside env state (thread, .stop) →
          ∃ later final, run (step env) state ((thread, .stop) :: later) = some final ∧
            ¬ Quiescent final := by
  constructor
  · intro inputs final meets ran
    exact quiescent_of_meets meets ran
  · intro inputs state thread ran canEnter within
    exact (sound_of_run ran).stop_within canEnter within

namespace ShutdownExample

/-- Not thread safe, with neither KDS nor persistent map nor file systems. -/
def env : EnclaveEnvironment where
  kdsConfigured := false
  enablePersistentMap := false
  maxPersistentMapSize := 0
  sealData _ _ := none
  unsealData _ := none
  threadSafe := false
  enclaveMode := .MOCK
  hasPersistenceKeySpec := false
  localSecretKey := List.replicate 16 1
  inMemoryFileSystemSize := 0
  persistentFileSystemSize := 0
  cipher := OneEntry.exampleCipher

def advances (thread : Bool) (times : Nat) : List (Bool × Action) :=
  List.replicate times (thread, .advance true)

/-- The first thread starts the enclave without a sealed state and calls `receiveFromUntrustedHost`,
which calls out to the host. -/
def receiving : List (Bool × Action) :=
  [(false, .start [1])] ++ advances false 6 ++ [(false, .finish true), (false, .untrustedHost)] ++
    advances false 5 ++ [(false, .callUntrustedHost false)]

def stopWithinReceive : List (Bool × Action) :=
  receiving ++ [(false, .stop)] ++ advances false 3

/-- The other thread waits until the receive is over. -/
def stopOutside : List (Bool × Action) :=
  receiving ++ (true, .stop) ::
    ([(false, .finish true), (false, .finish true)] ++ advances true 3)

end ShutdownExample

open ShutdownExample in
theorem onShutdown_withinReceive :
    ¬ ∀ inputs final, run (step env) (State.initial Bool) inputs = some final →
      Quiescent final := by
  intro quiescent
  have ran : run (step env) (State.initial Bool) stopWithinReceive = some _ := rfl
  have invoked := quiescent _ _ ran rfl
  apply invoked
  refine ⟨false, .receive false .receiving, ?_, rfl⟩
  change _ ∈ [Frame.stop .onShutdown, .callUntrustedHost .receiveFromUntrustedHost,
    .receive false .receiving]
  simp

open ShutdownExample in
theorem shutdown_quiescent_stopOutside :
    ∃ final, run (step env) (State.initial Bool) stopOutside = some final ∧
      final.onShutdownInvoked = true ∧ Quiescent final := by
  have ran : run (step env) (State.initial Bool) stopOutside = some _ := rfl
  have received : run (step env) (State.initial Bool) receiving = some _ := rfl
  have before : ∀ input ∈ receiving, input.2 ≠ .stop := by decide
  have after : ∀ input ∈ [(false, Action.finish true), (false, .finish true)] ++ advances true 3,
      input.2 ≠ .stop := by decide
  have meets : Meets (step env) (StopsOutside env) (State.initial Bool) stopOutside := by
    refine .append (.of_forall fun input member => stopsOutside_of_ne (before input member))
      received (.cons ?_ rfl (.of_forall fun input member => stopsOutside_of_ne
        (after input member)))
    exact fun _ => .inr fun frame member => by cases member
  exact ⟨_, ran, rfl, (shutdown_quiescent env).1 _ _ meets ran⟩

end Conclave.Enclave.Handlers
