import ConclaveFormal.Enclave.HandlerSteps

/-!
# What the call handlers keep

The facts that hold in every reachable state: who holds the lock, how far an activation can have
come in which state of the enclave, and which activations are counted.
-/

set_option autoImplicit false

namespace Conclave.Enclave.Handlers

open Conclave.Lib

variable {Thread : Type} [DecidableEq Thread]

/-! ## The invariant -/

/-- How far the activation can have come in this state of the enclave. -/
def FrameOk (env : EnclaveEnvironment) (enclaveState : EnclaveState) (startFailed : Bool)
    (below : List Frame) : Frame → Prop
  | .start phase =>
      env.refusesStart = false ∧ (phase.past = true → enclaveState ≠ .new ∧ below = [])
  | .stop phase =>
      match phase with
      | .locking | .transitioning => True
      | .quiescing | .onShutdown => enclaveState = .closed
      | .awaiting holds =>
          enclaveState = .closed ∧ holds = (lockUse env).count below + 1 ∧ env.threadSafe = true
  | .receive afterFailure phase =>
      (afterFailure = true → startFailed = true) ∧
        match phase with
        | .locking | .checkingState => True
        | .preReceive | .starting => enclaveState = .started
        | .calling | .receiving | .sealing => enclaveState ≠ .new
        | .leaving => env.threadSafe = true
  | .callback | .callUntrustedHost _ => enclaveState ≠ .new

structure Sound (env : EnclaveEnvironment) (state : State Thread) : Prop where
  lock : (lockUse env).Matches state.lock state.calls
  nested : ∀ thread, ∀ frame ∈ (state.calls thread).tail, frame.suspended = true
  frames : ∀ thread,
    EachAbove (FrameOk env state.enclaveState state.startFailed) (state.calls thread)
  executing : ∃ receivers : List Thread,
    receivers.length = state.numberReceiveCallsExecuting ∧
      ∀ thread, receivers.count thread = (state.calls thread).countP (Frame.counted env)
  context : state.hasReceiveContext = true →
    env.threadSafe = false ∧ env.enablePersistentMap = true ∧
      ∃ thread, ∃ frame ∈ state.calls thread, frame.inContext = true
  given : ∀ thread, state.enclaveCalls thread = some (.receive .given) →
    state.enclaveState ≠ .new

section Frames

variable {env : EnclaveEnvironment} {enclaveState enclaveState' : EnclaveState}
  {startFailed startFailed' : Bool} {below : List Frame} {frame : Frame}

theorem awaits_of_suspended (suspended : frame.suspended = true) :
    (lockUse env).awaits frame = false := by
  cases frame with
  | stop phase =>
      cases phase with
      | awaiting holds => cases suspended
      | _ => rfl
  | _ => rfl

theorem armed_of_suspended (suspended : frame.suspended = true) : frame.armed = false := by
  cases frame with
  | receive afterFailure phase =>
      cases phase with
      | preReceive => cases suspended
      | starting => cases suspended
      | _ => rfl
  | _ => rfl

variable (env) in
theorem holds_of_armed (armed : frame.armed = true) :
    (lockUse env).holds frame = true ∧ (lockUse env).awaits frame = false := by
  cases frame with
  | receive afterFailure phase =>
      cases phase with
      | preReceive => exact ⟨rfl, rfl⟩
      | starting => exact ⟨rfl, rfl⟩
      | _ => cases armed
  | _ => cases armed

theorem holds_of_past {phase : StartPhase} (past : phase.past = true) :
    (lockUse env).holds (.start phase) = true := by
  cases phase with
  | locking _ => cases past
  | _ => rfl

/-- The user's code runs, and calls out, only in an enclave that has been started. -/
theorem not_new_of_suspended (ok : FrameOk env enclaveState startFailed below frame)
    (suspended : frame.suspended = true) : enclaveState ≠ .new := by
  cases frame with
  | start phase =>
      cases phase with
      | onStartup => exact (ok.2 rfl).1
      | _ => cases suspended
  | stop phase =>
      cases phase with
      | onShutdown =>
          intro new
          rw [FrameOk, new] at ok
          cases ok
      | _ => cases suspended
  | receive afterFailure phase =>
      cases phase with
      | receiving => exact ok.2
      | sealing => exact ok.2
      | _ => cases suspended
  | callback => exact ok
  | callUntrustedHost previous => exact ok

/-- How the state of the enclave can change under an activation. -/
inductive Later (frame : Frame) : EnclaveState → EnclaveState → Prop
  | same (enclaveState : EnclaveState) : Later frame enclaveState enclaveState
  | started : Later frame .new .started
  | closed (unarmed : frame.armed = false) : Later frame .started .closed

theorem FrameOk.later (ok : FrameOk env enclaveState startFailed below frame)
    (later : Later frame enclaveState enclaveState')
    (failed : startFailed = true → startFailed' = true) :
    FrameOk env enclaveState' startFailed' below frame := by
  have notNew : enclaveState ≠ .new → enclaveState' ≠ .new := by
    cases later with
    | same => exact id
    | started => exact fun _ => by decide
    | closed => exact fun _ => by decide
  have stillClosed : enclaveState = .closed → enclaveState' = .closed := by
    rintro rfl
    cases later with
    | same => rfl
  cases frame with
  | start phase => exact ⟨ok.1, fun past => ⟨notNew (ok.2 past).1, (ok.2 past).2⟩⟩
  | stop phase =>
      cases phase with
      | locking => trivial
      | transitioning => trivial
      | quiescing => exact stillClosed ok
      | awaiting holds => exact ⟨stillClosed ok.1, ok.2⟩
      | onShutdown => exact stillClosed ok
  | receive afterFailure phase =>
      refine ⟨fun after => failed (ok.1 after), ?_⟩
      have reached := ok.2
      cases phase with
      | locking => trivial
      | checkingState => trivial
      | preReceive =>
          cases later with
          | same => exact reached
          | started => rfl
          | closed unarmed => cases unarmed
      | starting =>
          cases later with
          | same => exact reached
          | started => rfl
          | closed unarmed => cases unarmed
      | calling => exact notNew reached
      | receiving => exact notNew reached
      | sealing => exact notNew reached
      | leaving => exact reached
  | callback => exact notNew ok
  | callUntrustedHost previous => exact notNew ok

end Frames

section Preservation

variable {env : EnclaveEnvironment} {state next middle : State Thread} {thread : Thread}
  {action : Action} {frame frame' : Frame} {rest replacing : List Frame}

theorem sound_initial (env : EnclaveEnvironment) : Sound env (State.initial Thread) where
  lock _ := rfl
  nested _ _ member := by cases member
  frames _ := trivial
  executing := ⟨[], rfl, fun _ => rfl⟩
  context set := by cases set
  given _ found := by cases found

theorem Sound.suspended (sound : Sound env state) (top : state.calls thread = frame :: rest) :
    ∀ other ∈ rest, other.suspended = true := by
  have nested := sound.nested thread
  rw [top] at nested
  exact nested

theorem Sound.frameOk (sound : Sound env state) (top : state.calls thread = frame :: rest) :
    FrameOk env state.enclaveState state.startFailed rest frame ∧
      EachAbove (FrameOk env state.enclaveState state.startFailed) rest := by
  have each := sound.frames thread
  rw [top] at each
  exact each

theorem Sound.held_rest (sound : Sound env state) (top : state.calls thread = frame :: rest) :
    (lockUse env).held rest = (lockUse env).count rest :=
  LockUse.held_of_none fun other member => awaits_of_suspended (sound.suspended top other member)

omit [DecidableEq Thread] in
theorem held_top (top : state.calls thread = frame :: rest)
    (awake : (lockUse env).awaits frame = false) :
    (lockUse env).held (state.calls thread) =
      (lockUse env).count rest + if (lockUse env).holds frame then 1 else 0 := by
  rw [top, LockUse.held_cons awake]

/-- An activation between its check and its count holds the lock. -/
theorem Sound.held_of_armed (sound : Sound env state) (member : frame ∈ state.calls thread)
    (armed : frame.armed = true) : 0 < (lockUse env).held (state.calls thread) := by
  cases top : state.calls thread with
  | nil =>
      rw [top] at member
      cases member
  | cons first below =>
      rw [top] at member
      rcases List.mem_cons.mp member with rfl | under
      · obtain ⟨holds, awake⟩ := holds_of_armed env armed
        rw [LockUse.held_cons awake, if_pos holds]
        exact Nat.succ_pos _
      · have unarmed := armed_of_suspended (sound.suspended top frame under)
        rw [armed] at unarmed
        cases unarmed

/-! ### The lock -/

variable (env) in
theorem Opens.lockUse (opens : Opens frame frame') :
    (lockUse env).holds frame = false ∧ (lockUse env).awaits frame = false ∧
      (lockUse env).holds frame' = true ∧ (lockUse env).awaits frame' = false := by
  cases opens <;> exact ⟨rfl, rfl, rfl, rfl⟩

theorem GoesOn.lockUse {enclaveState : EnclaveState} (goes : GoesOn env enclaveState frame frame') :
    (lockUse env).holds frame' = (lockUse env).holds frame ∧
      (lockUse env).awaits frame = false ∧ (lockUse env).awaits frame' = false := by
  cases goes with
  | start before after => exact ⟨by rw [holds_of_past before, holds_of_past after], rfl, rfl⟩
  | checked => exact ⟨rfl, rfl, rfl⟩
  | preReceived => exact ⟨rfl, rfl, rfl⟩
  | began afterFailure single => exact ⟨by simp [Handlers.lockUse, single], rfl, rfl⟩
  | called => exact ⟨rfl, rfl, rfl⟩
  | returned afterFailure multi => exact ⟨by simp [Handlers.lockUse, multi], rfl, rfl⟩
  | sealing afterFailure single => exact ⟨by simp [Handlers.lockUse, single], rfl, rfl⟩

omit [DecidableEq Thread] in
theorem Entry.lockUse (entry : Entry env state thread action frame) :
    (lockUse env).holds frame = false ∧ (lockUse env).awaits frame = false := by
  cases entry <;> exact ⟨rfl, rfl⟩

theorem Move.matches (sound : Sound env state) (top : state.calls thread = frame :: rest)
    (move : Move env state thread frame middle replacing) :
    (lockUse env).Matches middle.lock (Function.update state.calls thread (replacing ++ rest)) := by
  have held := fun awake => held_top top (awake : (lockUse env).awaits frame = false)
  cases move with
  | locked opens free lock =>
      obtain ⟨before, awake, after, awake'⟩ := opens.lockUse env
      rw [lock]
      apply sound.lock.acquire free
      rw [held awake, List.singleton_append, LockUse.held_cons awake', before, after]
      rfl
  | goesOn goes lock =>
      obtain ⟨same, awake, awake'⟩ := goes.lockUse
      rw [lock]
      apply sound.lock.keep
      rw [held awake, List.singleton_append, LockUse.held_cons awake', same]
  | unlocked holds wakes uncounted lock =>
      rw [lock]
      apply sound.lock.release
      rw [held wakes, if_pos holds, List.nil_append, sound.held_rest top]
  | callbackReturned =>
      apply sound.lock.keep
      rw [held rfl, List.nil_append, sound.held_rest top]
      rfl
  | hostReturned previous =>
      apply sound.lock.keep
      rw [held rfl, List.nil_append, sound.held_rest top]
      rfl
  | started parameterBuffer new =>
      apply sound.lock.keep
      rw [held rfl]
      exact LockUse.held_cons rfl rest
  | closed started =>
      apply sound.lock.keep
      rw [held rfl]
      exact LockUse.held_cons rfl rest
  | awaited some_executing =>
      apply sound.lock.releaseAll
      · rw [held rfl]
        exact Nat.succ_pos _
      · exact LockUse.held_awaiting rfl rest
  | woken holds free =>
      have count : holds = (lockUse env).held (.stop .quiescing :: rest) := by
        rw [@LockUse.held_cons _ (Handlers.lockUse env) (.stop .quiescing) rfl]
        exact (sound.frameOk top).1.2.1
      rw [count]
      apply sound.lock.acquireTimes free
      rw [top]
      exact LockUse.held_awaiting rfl rest
  | invoked quiescent =>
      apply sound.lock.keep
      rw [held rfl]
      exact LockUse.held_cons rfl rest
  | counted afterFailure multi =>
      apply sound.lock.release
      have unlocked : (Handlers.lockUse env).holds (.receive afterFailure .calling) = false := by
        simp [Handlers.lockUse, multi]
      rw [held rfl, List.singleton_append,
        @LockUse.held_cons _ (Handlers.lockUse env) (.receive afterFailure .calling) rfl, unlocked]
      rfl
  | uncounted afterFailure free =>
      apply sound.lock.keep
      rw [held rfl, List.nil_append, sound.held_rest top]
      rfl

/-! ### What a move leaves behind -/

theorem Move.calls (move : Move env state thread frame middle replacing) :
    middle.calls = state.calls := by
  cases move with
  | locked _ _ _ keeps => exact keeps.calls
  | goesOn _ _ keeps => exact keeps.calls
  | unlocked _ _ _ _ keeps => exact keeps.calls
  | _ => rfl

theorem Move.stillClosed (move : Move env state thread frame middle replacing)
    (closed : state.enclaveState = .closed) : middle.enclaveState = .closed := by
  cases move with
  | locked _ _ _ keeps => rw [keeps.enclaveState, closed]
  | goesOn _ _ keeps => rw [keeps.enclaveState, closed]
  | unlocked _ _ _ _ keeps => rw [keeps.enclaveState, closed]
  | started parameterBuffer new =>
      rw [closed] at new
      cases new
  | closed started => rfl
  | _ => exact closed

theorem Move.single (move : Move env state thread frame middle replacing) :
    replacing.length ≤ 1 := by
  cases move <;> simp

theorem Move.throws (move : Move env state thread frame middle replacing) :
    Throws frame state middle := by
  cases move with
  | locked _ _ _ _ exceptions => exact .inl exceptions
  | goesOn _ _ _ exceptions => exact .inl exceptions
  | unlocked _ _ _ _ _ exceptions => exact exceptions
  | _ => exact .inl rfl

theorem Move.nested (sound : Sound env state) (top : state.calls thread = frame :: rest)
    (move : Move env state thread frame middle replacing) :
    ∀ other ∈ (replacing ++ rest).tail, other.suspended = true := by
  have below := sound.suspended top
  have belowTail : ∀ other ∈ rest.tail, other.suspended = true := fun other member =>
    below other (List.mem_of_mem_tail member)
  cases move with
  | unlocked => exact belowTail
  | callbackReturned => exact belowTail
  | hostReturned => exact belowTail
  | uncounted => exact belowTail
  | _ => exact below

omit [DecidableEq Thread] in
theorem startFailed_of_throws (throws : Throws frame state next)
    (failed : state.startFailed = true) : next.startFailed = true := by
  rcases throws with same | ⟨phase, e, -, more, -⟩
  · rw [State.startFailed, same]
    exact failed
  · rw [State.startFailed, more, List.any_append]
    exact Bool.or_eq_true_iff.mpr (.inl failed)

/-- No activation of another thread is armed when the enclave is closed. -/
theorem Move.later (sound : Sound env state) (top : state.calls thread = frame :: rest)
    (move : Move env state thread frame middle replacing) {other : Thread} {frame' : Frame}
    (member : frame' ∈ state.calls other) (different : other = thread → frame' ∈ rest) :
    Later frame' state.enclaveState middle.enclaveState := by
  cases move with
  | locked _ _ _ keeps => exact keeps.enclaveState ▸ .same _
  | goesOn _ _ keeps => exact keeps.enclaveState ▸ .same _
  | unlocked _ _ _ _ keeps => exact keeps.enclaveState ▸ .same _
  | started parameterBuffer new =>
      rw [new]
      exact .started
  | closed started =>
      rw [started]
      refine .closed ?_
      by_contra armed
      rw [Bool.not_eq_false] at armed
      have holds : 0 < (Handlers.lockUse env).held (state.calls thread) := by
        rw [held_top top rfl]
        exact Nat.succ_pos _
      have same := sound.lock.exclusive (sound.held_of_armed member armed) holds
      have unarmed := armed_of_suspended (sound.suspended top frame' (different same))
      rw [armed] at unarmed
      cases unarmed
  | _ => exact .same _

theorem countP_counted_single (single : env.threadSafe = false) (stack : List Frame) :
    stack.countP (Frame.counted env) = 0 := by
  apply List.countP_eq_zero.mpr
  intro frame _
  cases frame with
  | receive afterFailure phase => cases phase <;> simp [Frame.counted, single]
  | _ => simp [Frame.counted]

/-- Only enclaves that are thread safe count their receives. -/
theorem Sound.not_executing (sound : Sound env state) (single : env.threadSafe = false) :
    state.numberReceiveCallsExecuting = 0 := by
  obtain ⟨receivers, length, counts⟩ := sound.executing
  cases receivers with
  | nil => exact length.symm
  | cons receiver others =>
      have counted := counts receiver
      rw [countP_counted_single single, List.count_cons_self] at counted
      cases counted

theorem multi_of_executing (sound : Sound env state)
    (some_executing : 0 < state.numberReceiveCallsExecuting) : env.threadSafe = true := by
  by_contra single
  rw [Bool.not_eq_true] at single
  rw [sound.not_executing single] at some_executing
  cases some_executing

/-- The frame that takes the place of one that goes on. -/
theorem Move.frameOk (sound : Sound env state) (top : state.calls thread = frame :: rest)
    (move : Move env state thread frame middle replacing) (added : frame' ∈ replacing) :
    FrameOk env middle.enclaveState middle.startFailed rest frame' := by
  have ok := (sound.frameOk top).1
  have failed : state.startFailed = true → middle.startFailed = true :=
    startFailed_of_throws move.throws
  cases move with
  | locked opens _ _ keeps =>
      cases List.mem_singleton.mp added
      cases opens with
      | start parameterBuffer => exact ⟨ok.1, fun past => by cases past⟩
      | stop => trivial
      | receive afterFailure => exact ⟨fun after => failed (ok.1 after), trivial⟩
  | goesOn goes _ keeps =>
      cases List.mem_singleton.mp added
      rw [keeps.enclaveState]
      cases goes with
      | start before after => exact ⟨ok.1, fun _ => ok.2 before⟩
      | checked afterFailure started => exact ⟨fun after => failed (ok.1 after), started⟩
      | preReceived afterFailure => exact ⟨fun after => failed (ok.1 after), ok.2⟩
      | began afterFailure single =>
          refine ⟨fun after => failed (ok.1 after), ?_⟩
          rw [show state.enclaveState = .started from ok.2]
          simp
      | called afterFailure => exact ⟨fun after => failed (ok.1 after), ok.2⟩
      | returned afterFailure multi => exact ⟨fun after => failed (ok.1 after), multi⟩
      | sealing afterFailure single => exact ⟨fun after => failed (ok.1 after), ok.2⟩
  | unlocked => cases added
  | callbackReturned => cases added
  | hostReturned => cases added
  | started parameterBuffer new =>
      cases List.mem_singleton.mp added
      refine ⟨ok.1, fun _ => ⟨by simp, ?_⟩⟩
      -- whatever waited below would have been invoked in an enclave that was started
      cases rest with
      | nil => rfl
      | cons first below =>
          have waiting := sound.suspended top first List.mem_cons_self
          exact absurd new (not_new_of_suspended (sound.frameOk top).2.1 waiting)
  | closed started =>
      cases List.mem_singleton.mp added
      rfl
  | awaited some_executing =>
      cases List.mem_singleton.mp added
      refine ⟨ok, ?_, multi_of_executing sound some_executing⟩
      rw [sound.lock thread, held_top top rfl]
      rfl
  | woken holds free =>
      cases List.mem_singleton.mp added
      exact ok.1
  | invoked quiescent =>
      cases List.mem_singleton.mp added
      exact ok
  | counted afterFailure multi =>
      cases List.mem_singleton.mp added
      refine ⟨fun after => failed (ok.1 after), ?_⟩
      change state.enclaveState ≠ .new
      rw [show state.enclaveState = .started from ok.2]
      decide
  | uncounted => cases added

theorem Move.frames (sound : Sound env state) (top : state.calls thread = frame :: rest)
    (move : Move env state thread frame middle replacing) (other : Thread) :
    EachAbove (FrameOk env middle.enclaveState middle.startFailed)
      (Function.update state.calls thread (replacing ++ rest) other) := by
  have failed : state.startFailed = true → middle.startFailed = true :=
    startFailed_of_throws move.throws
  by_cases own : other = thread
  · subst own
    rw [Function.update_self]
    have below : EachAbove (FrameOk env middle.enclaveState middle.startFailed) rest := by
      refine (sound.frameOk top).2.imp ?_
      intro under frame' member ok
      have among : frame' ∈ state.calls other := top ▸ List.mem_cons_of_mem _ member
      exact ok.later (move.later sound top among fun _ => member) failed
    exact .replace move.single (fun _ => move.frameOk sound top) below
  · rw [Function.update_of_ne own]
    refine (sound.frames other).imp ?_
    intro under frame' member ok
    exact ok.later (move.later sound top member fun same => absurd same own) failed

/-! ### Counted receives and receive contexts -/

theorem Opens.notCounted (opens : Opens frame frame') :
    frame.counted env = false ∧ frame'.counted env = false ∧ frame.inContext = false := by
  cases opens <;> exact ⟨rfl, rfl, rfl⟩

theorem GoesOn.counted {enclaveState : EnclaveState} (goes : GoesOn env enclaveState frame frame') :
    frame'.counted env = frame.counted env := by
  cases goes with
  | began afterFailure single => exact single
  | sealing afterFailure single => exact single.symm
  | _ => rfl

omit [DecidableEq Thread] in
theorem Entry.notCounted (entry : Entry env state thread action frame) :
    frame.counted env = false := by
  cases entry <;> rfl

/-- The counter goes along with the number of counted activations of the thread. -/
inductive Recount (before after counter counter' : Nat) : Prop
  | same (frames : after = before) (counter : counter' = counter)
  | more (frames : after = before + 1) (counter : counter' = counter + 1)
  | fewer (frames : before = after + 1) (counter : counter' = counter - 1)

theorem Move.recount (sound : Sound env state) (top : state.calls thread = frame :: rest)
    (move : Move env state thread frame middle replacing) :
    Recount ((state.calls thread).countP (Frame.counted env))
      ((replacing ++ rest).countP (Frame.counted env))
      state.numberReceiveCallsExecuting middle.numberReceiveCallsExecuting := by
  rw [top]
  cases move with
  | locked opens _ _ keeps =>
      obtain ⟨before, after, -⟩ := @Opens.notCounted env _ _ opens
      refine .same ?_ keeps.executing
      rw [List.singleton_append, List.countP_cons, List.countP_cons, before, after]
  | goesOn goes _ keeps =>
      refine .same ?_ keeps.executing
      rw [List.singleton_append, List.countP_cons, List.countP_cons, goes.counted]
  | unlocked _ _ uncounted _ keeps =>
      refine .same ?_ keeps.executing
      rw [List.nil_append, List.countP_cons_of_neg (by simp [uncounted])]
  | counted afterFailure multi =>
      refine .more ?_ rfl
      have before : ¬ Frame.counted env (.receive afterFailure .starting) = true :=
        Bool.false_ne_true
      have after : Frame.counted env (.receive afterFailure .calling) = true := multi
      rw [List.countP_cons_of_neg before, List.singleton_append, List.countP_cons_of_pos after]
  | uncounted afterFailure free =>
      have leaving : Frame.counted env (.receive afterFailure .leaving) = true :=
        (sound.frameOk top).1.2
      refine .fewer ?_ rfl
      rw [List.countP_cons_of_pos leaving, List.nil_append]
  | _ => exact .same rfl rfl

theorem Recount.executing {calls : Thread → List Frame} {stack : List Frame}
    {counter counter' : Nat}
    (recount : Recount ((calls thread).countP (Frame.counted env))
      (stack.countP (Frame.counted env)) counter counter')
    (executing : ∃ receivers : List Thread, receivers.length = counter ∧
      ∀ thread, receivers.count thread = (calls thread).countP (Frame.counted env)) :
    ∃ receivers : List Thread, receivers.length = counter' ∧
      ∀ other, receivers.count other =
        (Function.update calls thread stack other).countP (Frame.counted env) := by
  obtain ⟨receivers, length, counts⟩ := executing
  cases recount with
  | same frames counter =>
      refine ⟨receivers, by omega, ?_⟩
      intro other
      by_cases own : other = thread
      · subst own
        rw [Function.update_self, counts, frames]
      · rw [Function.update_of_ne own, counts]
  | more frames counter =>
      refine ⟨thread :: receivers, by rw [List.length_cons, length, counter], ?_⟩
      intro other
      by_cases own : other = thread
      · subst own
        rw [Function.update_self, List.count_cons_self, counts, frames]
      · rw [Function.update_of_ne own, List.count_cons_of_ne (Ne.symm own), counts]
  | fewer frames counter =>
      have member : thread ∈ receivers := by
        apply List.count_pos_iff.mp
        rw [counts, frames]
        exact Nat.succ_pos _
      refine ⟨receivers.erase thread, by rw [List.length_erase_of_mem member, length, counter], ?_⟩
      intro other
      by_cases own : other = thread
      · subst own
        rw [Function.update_self, List.count_erase_self, counts, frames, Nat.add_sub_cancel]
      · rw [Function.update_of_ne own, List.count_erase_of_ne own, counts]

theorem Move.given (sound : Sound env state) (top : state.calls thread = frame :: rest)
    (move : Move env state thread frame middle replacing) (other : Thread)
    (given : middle.enclaveCalls other = some (.receive .given)) : middle.enclaveState ≠ .new := by
  have ok := (sound.frameOk top).1
  cases move with
  | locked _ _ _ keeps => exact keeps.enclaveState ▸ sound.given other (keeps.callStates ▸ given)
  | goesOn _ _ keeps => exact keeps.enclaveState ▸ sound.given other (keeps.callStates ▸ given)
  | unlocked _ _ _ _ keeps =>
      exact keeps.enclaveState ▸ sound.given other (keeps.callStates ▸ given)
  | hostReturned previous => exact ok
  | started => simp
  | closed => simp
  | _ => exact sound.given other given

/-- The context is still one of an activation if the activation that goes on had none, or has one
in its place. -/
theorem Sound.context_of_handled (sound : Sound env state)
    (top : state.calls thread = frame :: rest) (set : state.hasReceiveContext = true)
    (handled : frame.inContext = true → env.threadSafe = false →
      env.enablePersistentMap = true → ∃ frame' ∈ replacing ++ rest, frame'.inContext = true) :
    env.threadSafe = false ∧ env.enablePersistentMap = true ∧
      ∃ other, ∃ frame' ∈ Function.update state.calls thread (replacing ++ rest) other,
        frame'.inContext = true := by
  obtain ⟨single, map, owner, holder, member, inContext⟩ := sound.context set
  refine ⟨single, map, ?_⟩
  by_cases own : owner = thread
  · subst own
    refine ⟨owner, ?_⟩
    rw [Function.update_self]
    rw [top] at member
    rcases List.mem_cons.mp member with rfl | under
    · exact handled inContext single map
    · exact ⟨holder, List.mem_append_right _ under, inContext⟩
  · refine ⟨owner, holder, ?_, inContext⟩
    rw [Function.update_of_ne own]
    exact member

theorem Move.context (sound : Sound env state) (top : state.calls thread = frame :: rest)
    (move : Move env state thread frame middle replacing)
    (set : middle.hasReceiveContext = true) :
    env.threadSafe = false ∧ env.enablePersistentMap = true ∧
      ∃ other, ∃ frame' ∈ Function.update state.calls thread (replacing ++ rest) other,
        frame'.inContext = true := by
  cases move with
  | locked opens _ _ _ _ context =>
      refine sound.context_of_handled top (context ▸ set) ?_
      intro inContext
      rw [(@Opens.notCounted env _ _ opens).2.2] at inContext
      cases inContext
  | goesOn goes _ _ _ context =>
      cases goes with
      | start before after =>
          exact sound.context_of_handled top (context ▸ set) fun inContext => by cases inContext
      | checked =>
          exact sound.context_of_handled top (context ▸ set) fun inContext => by cases inContext
      | preReceived =>
          exact sound.context_of_handled top (context ▸ set) fun inContext => by cases inContext
      | began afterFailure single =>
          rcases context with same | ⟨-, -, map⟩
          · exact sound.context_of_handled top (same ▸ set) fun inContext => by cases inContext
          · refine ⟨single, map, thread, .receive afterFailure .calling, ?_, rfl⟩
            rw [Function.update_self]
            exact List.mem_cons_self
      | called afterFailure =>
          exact sound.context_of_handled top (context ▸ set) fun _ _ _ =>
            ⟨.receive afterFailure .receiving, List.mem_cons_self, rfl⟩
      | returned afterFailure multi =>
          rcases context with ⟨same, -⟩ | cleared
          · refine sound.context_of_handled top (same ▸ set) fun _ single => ?_
            rw [multi] at single
            cases single
          · rw [cleared] at set
            cases set
      | sealing afterFailure single =>
          rcases context with ⟨same, multi | off⟩ | cleared
          · rw [multi] at single
            cases single
          · refine sound.context_of_handled top (same ▸ set) fun _ _ map => ?_
            rw [off] at map
            cases map
          · rw [cleared] at set
            cases set
  | unlocked _ _ _ _ _ _ context =>
      rcases context with ⟨same, outside | off⟩ | cleared
      · refine sound.context_of_handled top (same ▸ set) fun inContext => ?_
        rw [outside] at inContext
        cases inContext
      · refine sound.context_of_handled top (same ▸ set) fun _ _ map => ?_
        rw [off] at map
        cases map
      · rw [cleared] at set
        cases set
  | _ => exact sound.context_of_handled top set fun inContext => by cases inContext

/-- A receive of an enclave that is not thread safe holds the lock. -/
theorem Sound.held_of_inContext (sound : Sound env state) (single : env.threadSafe = false)
    (member : frame ∈ state.calls thread) (inContext : frame.inContext = true) :
    0 < (lockUse env).held (state.calls thread) := by
  have awake : ∀ frame ∈ state.calls thread, (lockUse env).awaits frame = false := by
    intro other among
    obtain ⟨below, ok⟩ := (sound.frames thread).of_mem among
    cases other with
    | stop phase =>
        cases phase with
        | awaiting holds =>
            rw [show env.threadSafe = true from ok.2.2] at single
            cases single
        | _ => rfl
    | _ => rfl
  have holds : (Handlers.lockUse env).holds frame = true := by
    cases frame with
    | receive afterFailure phase =>
        cases phase with
        | calling => simp [Handlers.lockUse, single]
        | receiving => simp [Handlers.lockUse, single]
        | _ => cases inContext
    | _ => cases inContext
  rw [LockUse.held_of_none awake]
  exact LockUse.count_pos member holds

/-! ### Every step -/

theorem Sound.moved (sound : Sound env state) (top : state.calls thread = frame :: rest)
    (move : Move env state thread frame middle replacing) :
    Sound env (middle.setStack thread (replacing ++ rest)) := by
  have lock := move.matches sound top
  have context := move.context sound top
  have given := move.given sound top
  have moved : (middle.setStack thread (replacing ++ rest)).calls =
      Function.update state.calls thread (replacing ++ rest) := by
    rw [State.calls_setStack, move.calls]
  refine ⟨moved ▸ lock, ?_, ?_, ?_, moved ▸ context, given⟩
  · intro other
    rw [moved]
    by_cases own : other = thread
    · rw [own, Function.update_self]
      exact move.nested sound top
    · rw [Function.update_of_ne own]
      exact sound.nested other
  · intro other
    rw [moved]
    exact move.frames sound top other
  · rw [moved]
    exact (move.recount sound top).executing sound.executing

omit [DecidableEq Thread] in
theorem startFailed_of_exceptions
    (exceptions : next.startExceptions = state.startExceptions ∨ env.refusesStart = true ∧
      next.startExceptions = state.startExceptions ++ [.notAvailableInMultiThreaded])
    (failed : state.startFailed = true) : next.startFailed = true := by
  rcases exceptions with same | ⟨-, more⟩
  · rw [State.startFailed, same]
    exact failed
  · rw [State.startFailed, more, List.any_append]
    exact Bool.or_eq_true_iff.mpr (.inl failed)

theorem Sound.given_of_givenBy (sound : Sound env state) (givenBy : GivenBy state thread next)
    (enclaveState : next.enclaveState = state.enclaveState) (other : Thread)
    (given : next.enclaveCalls other = some (.receive .given)) : next.enclaveState ≠ .new := by
  rw [enclaveState]
  rcases givenBy other given with before | ⟨frame, rest, top, userCode⟩
  · exact sound.given other before
  · have suspended : frame.suspended = true := by rw [Frame.suspended, userCode, Bool.true_or]
    exact not_new_of_suspended (sound.frameOk top).1 suspended

theorem Sound.idle (sound : Sound env state) (calls : next.calls = state.calls)
    (lock : next.lock = state.lock) (enclaveState : next.enclaveState = state.enclaveState)
    (executing : next.numberReceiveCallsExecuting = state.numberReceiveCallsExecuting)
    (context : next.hasReceiveContext = state.hasReceiveContext)
    (failed : state.startFailed = true → next.startFailed = true)
    (given : GivenBy state thread next) : Sound env next where
  lock := by
    rw [lock, calls]
    exact sound.lock
  nested := by
    rw [calls]
    exact sound.nested
  frames other := by
    rw [calls, enclaveState]
    exact (sound.frames other).imp fun _ _ _ ok => ok.later (.same _) failed
  executing := by
    rw [calls, executing]
    exact sound.executing
  context set := by
    rw [calls]
    exact sound.context (context ▸ set)
  given other found := sound.given_of_givenBy given enclaveState other found

theorem Sound.entryOk (sound : Sound env state) (entry : Entry env state thread action frame) :
    FrameOk env state.enclaveState state.startFailed (state.calls thread) frame := by
  cases entry with
  | start parameterBuffer accepted => exact ⟨accepted, fun past => by cases past⟩
  | stop => trivial
  | receive => exact ⟨id, trivial⟩
  | callback given => exact sound.given thread given
  | callUntrustedHost previous top userCode =>
      rename_i frame _
      have suspended : frame.suspended = true := by rw [Frame.suspended, userCode, Bool.true_or]
      exact not_new_of_suspended (sound.frameOk top).1 suspended

/-- The whole stack waits for a call that comes in above it. -/
theorem Sound.suspended_all (sound : Sound env state)
    (suspended : ∀ top rest, state.calls thread = top :: rest → top.suspended = true) :
    ∀ other ∈ state.calls thread, other.suspended = true := by
  intro other member
  cases calls : state.calls thread with
  | nil =>
      rw [calls] at member
      cases member
  | cons top rest =>
      rw [calls] at member
      rcases List.mem_cons.mp member with rfl | under
      · exact suspended other rest calls
      · exact sound.suspended calls other under

theorem Sound.pushed (sound : Sound env state) (entry : Entry env state thread action frame)
    (suspended : ∀ top rest, state.calls thread = top :: rest → top.suspended = true)
    (calls : next.calls = Function.update state.calls thread (frame :: state.calls thread))
    (lock : next.lock = state.lock) (enclaveState : next.enclaveState = state.enclaveState)
    (executing : next.numberReceiveCallsExecuting = state.numberReceiveCallsExecuting)
    (context : next.hasReceiveContext = state.hasReceiveContext)
    (exceptions : next.startExceptions = state.startExceptions)
    (given : GivenBy state thread next) : Sound env next := by
  have waiting := sound.suspended_all suspended
  have failed : next.startFailed = state.startFailed := by
    rw [State.startFailed, exceptions]
    rfl
  refine ⟨?_, ?_, ?_, ?_, ?_, ?_⟩
  · rw [lock, calls]
    obtain ⟨unlocked, awake⟩ := entry.lockUse
    apply sound.lock.keep
    rw [LockUse.held_cons awake, unlocked]
    exact (LockUse.held_of_none fun other member => awaits_of_suspended (waiting other member)).symm
  · intro other
    rw [calls]
    by_cases own : other = thread
    · rw [own, Function.update_self]
      exact waiting
    · rw [Function.update_of_ne own]
      exact sound.nested other
  · intro other
    rw [calls, enclaveState, failed]
    by_cases own : other = thread
    · rw [own, Function.update_self]
      exact ⟨sound.entryOk entry, sound.frames thread⟩
    · rw [Function.update_of_ne own]
      exact sound.frames other
  · rw [calls, executing]
    refine Recount.executing (.same ?_ rfl) sound.executing
    exact List.countP_cons_of_neg (by simp [entry.notCounted])
  · intro set
    obtain ⟨single, map, owner, holder, member, inContext⟩ := sound.context (context ▸ set)
    refine ⟨single, map, owner, holder, ?_, inContext⟩
    rw [calls]
    by_cases own : owner = thread
    · subst own
      rw [Function.update_self]
      exact List.mem_cons_of_mem _ member
    · rw [Function.update_of_ne own]
      exact member
  · exact fun other found => sound.given_of_givenBy given enclaveState other found

theorem Sound.step (sound : Sound env state)
    (stepped : step env state (thread, action) = some next) : Sound env next := by
  cases step_effect stepped with
  | idle calls lock enclaveState executing shutdown context exceptions given =>
      exact sound.idle calls lock enclaveState executing context
        (startFailed_of_exceptions exceptions) given
  | pushed frame entry suspended calls lock enclaveState executing shutdown context exceptions
      given =>
      exact sound.pushed entry suspended calls lock enclaveState executing context exceptions given
  | moved frame rest top middle frames move replaced =>
      rw [replaced]
      exact sound.moved top move

theorem sound_of_run {inputs : List (Thread × Action)} {final : State Thread}
    (ran : run (step env) (State.initial Thread) inputs = some final) : Sound env final :=
  run_invariant (fun sound stepped => Sound.step sound stepped) (sound_initial env) ran

end Preservation

end Conclave.Enclave.Handlers
