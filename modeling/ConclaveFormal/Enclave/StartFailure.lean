import ConclaveFormal.Enclave.HandlerInvariant

/-!
# Starts that fail

The handler of a start moves the enclave to the started state first and does what can fail
afterwards.  Nothing moves the enclave back, and that state is all that a receive looks at.
-/

set_option autoImplicit false

namespace Conclave.Enclave.Handlers

open Conclave.Lib

variable {Thread : Type}

/-- No call that came in after a start had failed has invoked `receiveMail` or
`receiveFromUntrustedHost`. -/
def AllOrNothing (state : State Thread) : Prop :=
  ∀ thread, Frame.receive true .receiving ∉ state.calls thread

/-- What the start does next does not fail. -/
def StartPhase.Succeeds (env : EnclaveEnvironment) (state : State Thread) (succeeds : Bool) :
    StartPhase → Prop
  | .locking _ | .transitioning _ => True
  | .reading parameterBuffer => parameterBuffer ≠ []
  | .initialisingKey _ => state.aesPersistenceKey ≠ none ∨ env.kdsRequired = false
  | .applying sealedStateBlob =>
      (env.applySealedState state.aesPersistenceKey state.persistent sealedStateBlob).1 = .ok ()
  | .settingUp => env.mountPoints = none ∨ succeeds = true
  | .onStartup => succeeds = true

/-- Unless the enclave has been stopped in the meantime, a start that is past its transition does
not fail. -/
def StartsCleanly (env : EnclaveEnvironment) (state : State Thread) : Thread × Action → Prop
  | (thread, .advance succeeds) | (thread, .finish succeeds) =>
      match state.calls thread with
      | .start phase :: _ => state.enclaveState = .started → phase.Succeeds env state succeeds
      | _ => True
  | _ => True

instance StartPhase.decidableSucceeds (env : EnclaveEnvironment) (state : State Thread)
    (succeeds : Bool) : (phase : StartPhase) → Decidable (phase.Succeeds env state succeeds)
  | .locking _ | .transitioning _ => isTrue trivial
  | .reading _ => inferInstanceAs (Decidable (_ ≠ _))
  | .initialisingKey _ => inferInstanceAs (Decidable (_ ∨ _))
  | .applying _ => inferInstanceAs (Decidable (_ = _))
  | .settingUp => inferInstanceAs (Decidable (_ ∨ _))
  | .onStartup => inferInstanceAs (Decidable (_ = _))

instance decidableStartsCleanly (env : EnclaveEnvironment) (state : State Thread) :
    (input : Thread × Action) → Decidable (StartsCleanly env state input)
  | (thread, .advance succeeds) | (thread, .finish succeeds) =>
      match top : state.calls thread with
      | .start phase :: _ =>
          decidable_of_iff (state.enclaveState = .started → phase.Succeeds env state succeeds)
            (by simp only [StartsCleanly, top])
      | [] | .stop _ :: _ | .receive _ _ :: _ | .callback :: _ | .callUntrustedHost _ :: _ =>
          isTrue (by simp only [StartsCleanly, top])
  | (_, .start _) | (_, .stop) | (_, .setKdsPersistenceKey _) | (_, .mail _) | (_, .untrustedHost)
  | (_, .callReturn) | (_, .callUntrustedHost _) => isTrue trivial

/-! ## What a failure is -/

/-- The start throws what `next` adds to the exceptions, and unlocks. -/
structure Fails (state next : State Thread) : Prop where
  calls : next.calls = state.calls
  enclaveState : next.enclaveState = state.enclaveState
  context : next.hasReceiveContext = state.hasReceiveContext
  lock : next.lock = state.lock.release
  exceptions : ∃ e, e ≠ .illegalState ∧ next.startExceptions = state.startExceptions ++ [e]

section Failures

variable [DecidableEq Thread] {env : EnclaveEnvironment} {state next middle : State Thread}
  {thread : Thread} {action : Action} {frame frame' : Frame} {rest replacing : List Frame}
  {succeeds : Bool} {phase : StartPhase}

omit [DecidableEq Thread] in
theorem Fails.startFailed (fails : Fails state next) : next.startFailed = true := by
  obtain ⟨e, failure, exceptions⟩ := fails.exceptions
  rw [State.startFailed, exceptions, List.any_append]
  simp [failure]

theorem readSealedStateBlob_isOk {parameterBuffer : Bytes} (some_byte : parameterBuffer ≠ []) :
    ∃ result, readSealedStateBlob parameterBuffer = .ok result := by
  cases parameterBuffer with
  | nil => exact absurd rfl some_byte
  | cons byte rest =>
      by_cases zero : byte = 0
      · subst zero
        exact ⟨(some rest, rest), rfl⟩
      · refine ⟨(none, rest), ?_⟩
        have isNull : (byte != 0) = true := by simpa using zero
        have read : BufferReader.getBoolean (byte :: rest) = .ok (true, rest) := by
          change Except.ok (byte != 0, rest) = _
          rw [isNull]
        rw [readSealedStateBlob, BufferReader.bind_ok read]
        rfl

theorem initialiseKey_isOk {aesPersistenceKey : Option Bytes}
    (known : aesPersistenceKey ≠ none ∨ env.kdsRequired = false) :
    ∃ key, env.initialiseLocalPersistenceKeyIfNecessary aesPersistenceKey = .ok key := by
  cases aesPersistenceKey with
  | some key => exact ⟨key, rfl⟩
  | none =>
      rcases known with absent | notRequired
      · exact absurd rfl absent
      · refine ⟨env.localSecretKey, ?_⟩
        rw [EnclaveEnvironment.initialiseLocalPersistenceKeyIfNecessary, notRequired]
        rfl

/-- Either the start succeeds in what it does next, or it fails there. -/
theorem advanceStart_fails_iff (past : phase.past = true)
    (ran : state.advanceStart thread env succeeds phase = some (middle, replacing)) :
    (phase.Succeeds env state succeeds ∧ middle.startExceptions = state.startExceptions) ∨
      (¬ phase.Succeeds env state succeeds ∧ replacing = [] ∧ Fails state middle) := by
  cases phase with
  | locking _ => cases past
  | transitioning _ => cases past
  | reading parameterBuffer =>
      by_cases empty : parameterBuffer = []
      · subst empty
        cases ran
        exact .inr ⟨fun some_byte => some_byte rfl, rfl, rfl, rfl, rfl, rfl, _, by simp, rfl⟩
      · obtain ⟨result, read⟩ := readSealedStateBlob_isOk empty
        simp only [State.advanceStart, read] at ran
        cases ran
        exact .inl ⟨empty, rfl⟩
  | initialisingKey sealedStateBlob =>
      by_cases known : state.aesPersistenceKey ≠ none ∨ env.kdsRequired = false
      · obtain ⟨key, initialised⟩ := initialiseKey_isOk known
        simp only [State.advanceStart, initialised] at ran
        cases ran
        exact .inl ⟨known, rfl⟩
      · have unknown := known
        simp only [not_or, not_not, Bool.not_eq_false] at unknown
        have refused : env.initialiseLocalPersistenceKeyIfNecessary state.aesPersistenceKey =
            .error .noKds := by
          rw [unknown.1, EnclaveEnvironment.initialiseLocalPersistenceKeyIfNecessary, unknown.2]
          rfl
        simp only [State.advanceStart, refused] at ran
        cases ran
        exact .inr ⟨known, rfl, rfl, rfl, rfl, rfl, _, by simp, rfl⟩
  | applying sealedStateBlob =>
      cases applied : env.applySealedState state.aesPersistenceKey state.persistent
          sealedStateBlob with
      | mk result persistent =>
          simp only [State.advanceStart, applied] at ran
          have succeeds_iff : (StartPhase.applying sealedStateBlob).Succeeds env state succeeds ↔
              result = .ok () := by
            rw [StartPhase.Succeeds, applied]
          cases result with
          | ok _ =>
              cases ran
              exact .inl ⟨succeeds_iff.mpr rfl, rfl⟩
          | error e =>
              cases ran
              refine .inr ⟨?_, rfl, rfl, rfl, rfl, rfl, _, by simp, rfl⟩
              rw [succeeds_iff]
              simp
  | settingUp =>
      by_cases set : env.setupFileSystems succeeds = true
      · simp only [State.advanceStart, if_pos set] at ran
        cases ran
        refine .inl ⟨?_, rfl⟩
        simpa [EnclaveEnvironment.setupFileSystems, StartPhase.Succeeds] using set
      · simp only [State.advanceStart, if_neg set] at ran
        cases ran
        refine .inr ⟨?_, rfl, rfl, rfl, rfl, rfl, _, by simp, rfl⟩
        simpa [EnclaveEnvironment.setupFileSystems, StartPhase.Succeeds] using set
  | onStartup => cases ran

theorem finish_fails_iff
    (ran : state.finish thread env succeeds (.start phase) = some (middle, replacing)) :
    (phase.Succeeds env state succeeds ∧ middle.startExceptions = state.startExceptions) ∨
      (¬ phase.Succeeds env state succeeds ∧ replacing = [] ∧ Fails state middle) := by
  cases phase with
  | onStartup =>
      cases succeeds with
      | true =>
          cases ran
          exact .inl ⟨rfl, rfl⟩
      | false =>
          cases ran
          exact .inr ⟨Bool.false_ne_true, rfl, rfl, rfl, rfl, rfl, _, by simp, rfl⟩
  | _ => cases ran

theorem step_start (top : state.calls thread = .start phase :: rest) (past : phase.past = true)
    (goesOn : action.goesOn succeeds) (stepped : step env state (thread, action) = some next) :
    (phase.Succeeds env state succeeds ∧ next.startExceptions = state.startExceptions) ∨
      (¬ phase.Succeeds env state succeeds ∧
        ∃ middle, Fails state middle ∧ next = middle.setStack thread rest) := by
  rcases goesOn with rfl | rfl
  · simp only [step, top] at stepped
    obtain ⟨⟨middle, frames⟩, ran, rfl⟩ := Option.map_eq_some_iff.mp stepped
    rcases advanceStart_fails_iff past ran with success | ⟨failure, rfl, fails⟩
    · exact .inl success
    · exact .inr ⟨failure, middle, fails, rfl⟩
  · simp only [step, top] at stepped
    obtain ⟨⟨middle, frames⟩, ran, rfl⟩ := Option.map_eq_some_iff.mp stepped
    rcases finish_fails_iff ran with success | ⟨failure, rfl, fails⟩
    · exact .inl success
    · exact .inr ⟨failure, middle, fails, rfl⟩

omit [DecidableEq Thread] in
theorem StartPhase.succeeds_of_not_past (before : phase.past = false) :
    phase.Succeeds env state succeeds := by
  cases phase with
  | locking _ => trivial
  | transitioning _ => trivial
  | _ => cases before

/-! ## Where every start succeeds -/

/-- A receive of a call after a failure has not got past its check. -/
def Barred : Frame → Prop
  | .receive afterFailure phase =>
      afterFailure = true → phase = .locking ∨ phase = .checkingState
  | _ => True

structure Safe (env : EnclaveEnvironment) (state : State Thread) : Prop where
  accepted : state.enclaveState ≠ .new → env.refusesStart = false
  failed : state.startFailed = true → env.refusesStart = true ∨ state.enclaveState = .closed
  barred : ∀ thread, ∀ frame ∈ state.calls thread, Barred frame

omit [DecidableEq Thread] in
theorem Safe.allOrNothing (safe : Safe env state) : AllOrNothing state := by
  intro thread member
  rcases safe.barred thread _ member rfl with locking | checking
  · cases locking
  · cases checking

omit [DecidableEq Thread] in
theorem safe_initial (env : EnclaveEnvironment) : Safe env (State.initial Thread) where
  accepted started := absurd rfl started
  failed failed := by cases failed
  barred _ _ member := by cases member

omit [DecidableEq Thread] in
theorem Safe.not_started (safe : Safe env state) (failed : state.startFailed = true) :
    state.enclaveState ≠ .started := by
  intro started
  rcases safe.failed failed with refused | closed
  · rw [safe.accepted (by simp [started])] at refused
    cases refused
  · rw [started] at closed
    cases closed

theorem Move.accepted (sound : Sound env state) (safe : Safe env state)
    (top : state.calls thread = frame :: rest)
    (move : Move env state thread frame middle replacing) (started : middle.enclaveState ≠ .new) :
    env.refusesStart = false := by
  cases move with
  | locked _ _ _ keeps => exact safe.accepted (keeps.enclaveState ▸ started)
  | goesOn _ _ keeps => exact safe.accepted (keeps.enclaveState ▸ started)
  | unlocked _ _ _ _ keeps => exact safe.accepted (keeps.enclaveState ▸ started)
  | started parameterBuffer new => exact (sound.frameOk top).1.1
  | closed started' => exact safe.accepted (by simp [started'])
  | _ => exact safe.accepted started

theorem barred_of_past {afterFailure : Bool} {phase phase' : ReceivePhase}
    (own : Barred (.receive afterFailure phase)) (locked : phase ≠ .locking)
    (checked : phase ≠ .checkingState) : Barred (.receive afterFailure phase') := by
  intro late
  rcases own late with locking | checking
  · exact absurd locking locked
  · exact absurd checking checked

theorem Move.barred (sound : Sound env state) (safe : Safe env state)
    (top : state.calls thread = frame :: rest)
    (move : Move env state thread frame middle replacing) (added : frame' ∈ replacing) :
    Barred frame' := by
  have own := safe.barred thread frame (top ▸ List.mem_cons_self)
  have ok := (sound.frameOk top).1
  cases move with
  | locked opens =>
      cases List.mem_singleton.mp added
      cases opens with
      | start parameterBuffer => trivial
      | stop => trivial
      | receive afterFailure => exact fun _ => .inr rfl
  | goesOn goes =>
      cases List.mem_singleton.mp added
      cases goes with
      | start before after => trivial
      | checked afterFailure started =>
          exact fun late => absurd started (safe.not_started (ok.1 late))
      | preReceived afterFailure => exact barred_of_past own (by simp) (by simp)
      | began afterFailure single => exact barred_of_past own (by simp) (by simp)
      | called afterFailure => exact barred_of_past own (by simp) (by simp)
      | returned afterFailure multi => exact barred_of_past own (by simp) (by simp)
      | sealing afterFailure single => exact barred_of_past own (by simp) (by simp)
  | counted afterFailure multi =>
      cases List.mem_singleton.mp added
      exact barred_of_past own (by simp) (by simp)
  | started parameterBuffer new =>
      cases List.mem_singleton.mp added
      trivial
  | closed started =>
      cases List.mem_singleton.mp added
      trivial
  | awaited some_executing =>
      cases List.mem_singleton.mp added
      trivial
  | woken holds free =>
      cases List.mem_singleton.mp added
      trivial
  | invoked quiescent =>
      cases List.mem_singleton.mp added
      trivial
  | unlocked => cases added
  | callbackReturned => cases added
  | hostReturned => cases added
  | uncounted => cases added

omit [DecidableEq Thread] in
theorem startsCleanly_iff (goesOn : action.goesOn succeeds)
    (top : state.calls thread = .start phase :: rest) :
    StartsCleanly env state (thread, action) ↔
      (state.enclaveState = .started → phase.Succeeds env state succeeds) := by
  rcases goesOn with rfl | rfl
  · simp only [StartsCleanly, top]
  · simp only [StartsCleanly, top]

omit [DecidableEq Thread] in
/-- Only a start can fail the condition. -/
theorem start_of_unclean (unclean : ¬ StartsCleanly env state (thread, action)) :
    ∃ succeeds phase rest, action.goesOn succeeds ∧
      state.calls thread = .start phase :: rest := by
  have start : ∀ succeeds, action.goesOn succeeds → ∃ phase rest,
      state.calls thread = .start phase :: rest := by
    intro succeeds goesOn
    cases top : state.calls thread with
    | nil => rcases goesOn with rfl | rfl <;> simp [StartsCleanly, top] at unclean
    | cons frame rest =>
        cases frame with
        | start phase => exact ⟨phase, rest, rfl⟩
        | _ => rcases goesOn with rfl | rfl <;> simp [StartsCleanly, top] at unclean
  cases action with
  | advance succeeds =>
      obtain ⟨phase, rest, top⟩ := start succeeds (.inl rfl)
      exact ⟨succeeds, phase, rest, .inl rfl, top⟩
  | finish succeeds =>
      obtain ⟨phase, rest, top⟩ := start succeeds (.inr rfl)
      exact ⟨succeeds, phase, rest, .inr rfl, top⟩
  | _ => exact absurd trivial unclean

theorem Sound.locked_of_past (sound : Sound env state)
    (top : state.calls thread = .start phase :: rest) (past : phase.past = true) :
    rest = [] ∧ state.enclaveState ≠ .new ∧ state.lock.heldBy thread = 1 := by
  have ok := (sound.frameOk top).1.2 past
  refine ⟨ok.2, ok.1, ?_⟩
  rw [sound.lock thread, held_top top rfl, holds_of_past past, ok.2]
  rfl

/-- Behind a step that meets the condition a start has failed only if it was refused from the
outset, or if the enclave has been stopped while it was starting. -/
theorem Safe.failed_step (sound : Sound env state) (safe : Safe env state)
    (clean : StartsCleanly env state (thread, action))
    (stepped : step env state (thread, action) = some next)
    (failed : next.startFailed = true) :
    env.refusesStart = true ∨ next.enclaveState = .closed := by
  have only : state.startFailed = true → env.refusesStart = true ∨ state.enclaveState = .closed :=
    safe.failed
  cases step_effect stepped with
  | idle _ _ enclaveState _ _ _ exceptions =>
      rcases exceptions with same | ⟨refused, -⟩
      · rw [State.startFailed, same] at failed
        rw [enclaveState]
        exact only failed
      · exact .inl refused
  | pushed _ _ _ _ _ enclaveState _ _ _ exceptions =>
      rw [State.startFailed, exceptions] at failed
      rw [enclaveState]
      exact only failed
  | moved frame rest top middle frames move replaced succeeds goesOn =>
      have earlier : state.startFailed = true →
          env.refusesStart = true ∨ next.enclaveState = .closed := by
        intro before
        rw [replaced]
        exact (only before).imp_right move.stillClosed
      have exceptions : middle.startExceptions = next.startExceptions := by rw [replaced]; rfl
      rcases move.throws with same | ⟨phase, e, rfl, more, past | rfl⟩
      · rw [State.startFailed, ← exceptions, same] at failed
        exact earlier failed
      · rcases step_start top past goesOn stepped with ⟨-, same⟩ | ⟨failure, other, fails, rfl⟩
        · rw [State.startFailed, same] at failed
          exact earlier failed
        · right
          have notNew := (sound.locked_of_past top past).2.1
          have notStarted : state.enclaveState ≠ .started := fun started =>
            failure ((startsCleanly_iff goesOn top).mp clean started)
          change other.enclaveState = .closed
          rw [fails.enclaveState]
          cases enclaveState : state.enclaveState with
          | new => exact absurd enclaveState notNew
          | started => exact absurd enclaveState notStarted
          | closed => rfl
      · rw [State.startFailed, ← exceptions, more, List.any_append] at failed
        exact earlier (by simpa [State.startFailed] using failed)

theorem Safe.step (sound : Sound env state) (safe : Safe env state)
    (clean : StartsCleanly env state (thread, action))
    (stepped : step env state (thread, action) = some next) : Safe env next := by
  have failed := safe.failed_step sound clean stepped
  cases step_effect stepped with
  | idle calls _ enclaveState =>
      refine ⟨?_, failed, ?_⟩
      · rw [enclaveState]
        exact safe.accepted
      · rw [calls]
        exact safe.barred
  | pushed frame entry _ calls _ enclaveState =>
      refine ⟨?_, failed, ?_⟩
      · rw [enclaveState]
        exact safe.accepted
      · intro other frame' member
        rw [calls] at member
        by_cases own : other = thread
        · rw [own, Function.update_self] at member
          rcases List.mem_cons.mp member with rfl | under
          · cases entry with
            | receive => exact fun _ => .inl rfl
            | _ => trivial
          · exact safe.barred thread frame' under
        · rw [Function.update_of_ne own] at member
          exact safe.barred other frame' member
  | moved frame rest top middle frames move replaced =>
      have accepted := move.accepted sound safe top
      refine ⟨?_, failed, ?_⟩
      · rw [replaced]
        exact accepted
      · intro other frame' member
        rw [replaced, State.calls_setStack, move.calls] at member
        by_cases own : other = thread
        · rw [own, Function.update_self] at member
          rcases List.mem_append.mp member with added | under
          · exact move.barred sound safe top added
          · exact safe.barred thread frame' (top ▸ List.mem_cons_of_mem _ under)
        · rw [Function.update_of_ne own] at member
          exact safe.barred other frame' member

theorem allOrNothing_of_meets {inputs : List (Thread × Action)} {final : State Thread}
    (meets : Meets (Handlers.step env) (StartsCleanly env) (State.initial Thread) inputs)
    (ran : run (Handlers.step env) (State.initial Thread) inputs = some final) :
    AllOrNothing final := by
  have both : Sound env final ∧ Safe env final := by
    refine @run_invariant_of_meets _ _ (Handlers.step env)
      (fun state => Sound env state ∧ Safe env state) _ ?_ inputs _ final
      ⟨sound_initial env, safe_initial env⟩ meets ran
    rintro state ⟨thread, action⟩ next ⟨sound, safe⟩ clean stepped
    exact ⟨sound.step stepped, safe.step sound clean stepped⟩
  exact both.2.allOrNothing

/-! ## Behind a start that fails -/

omit [DecidableEq Thread] in
theorem startReceive_calling {afterFailure : Bool} (context : state.hasReceiveContext = false) :
    (state.startReceive env afterFailure).2 = [.receive afterFailure .calling] := by
  have unset : ¬ state.hasReceiveContext = true := by
    rw [context]
    exact Bool.false_ne_true
  by_cases multi : env.threadSafe = true
  · simp only [State.startReceive, if_pos multi]
  · by_cases map : env.enablePersistentMap = true
    · simp only [State.startReceive, if_neg multi, if_pos map, if_neg unset]
    · simp only [State.startReceive, if_neg multi, if_neg map]

/-- A thread that is not in the enclave, with the lock free, delivers a mail. -/
theorem receives_late (outside : state.calls thread = [])
    (free : state.lock.available thread = true) (started : state.enclaveState = .started)
    (failed : state.startFailed = true) (context : state.hasReceiveContext = false) :
    ∃ later final, run (Handlers.step env) state later = some final ∧ ¬ AllOrNothing final := by
  let delivered := (state.receiveMessage thread).push thread (.receive true .locking)
  let locked := (delivered.acquire thread).setStack thread ([.receive true .checkingState] ++ [])
  let checked := locked.setStack thread ([.receive true .preReceive] ++ [])
  let ready := checked.setStack thread ([.receive true .starting] ++ [])
  have canEnter : state.canEnter thread = true := by simp only [State.canEnter, outside]
  have top : delivered.calls thread = .receive true .locking :: [] := by
    change Function.update state.calls thread _ thread = _
    rw [Function.update_self]
    exact congrArg (_ :: ·) outside
  have delivering : Handlers.step env state (thread, .mail true) = some delivered := by
    have after : (state.receiveMessage thread).startFailed = true := failed
    rw [Handlers.step, if_pos canEnter, State.onMail, if_pos rfl, after]
  have locking : Handlers.step env delivered (thread, .advance true) = some locked := by
    apply step_advance top
    exact if_pos free
  have checking : Handlers.step env locked (thread, .advance true) = some checked := by
    apply step_advance (Function.update_self ..)
    exact if_pos started
  have passing : Handlers.step env checked (thread, .advance true) = some ready :=
    step_advance (Function.update_self ..) rfl
  have began : (ready.startReceive env true).2 = [.receive true .calling] :=
    startReceive_calling context
  let counted := (ready.startReceive env true).1
  let calling := counted.setStack thread ([.receive true .calling] ++ [])
  let receiving := calling.setStack thread ([.receive true .receiving] ++ [])
  have starting : Handlers.step env ready (thread, .advance true) = some calling :=
    step_advance (Function.update_self ..) (congrArg some (Prod.ext rfl began))
  have invoking : Handlers.step env calling (thread, .advance true) = some receiving :=
    step_advance (Function.update_self ..) rfl
  refine ⟨(thread, .mail true) :: List.replicate 5 (thread, .advance true), receiving, ?_, ?_⟩
  · rw [run, delivering, Option.bind_some]
    simp only [List.replicate, run, locking, checking, passing, starting, invoking,
      Option.bind_some]
  · intro allOrNothing
    apply allOrNothing thread
    rw [State.calls_setStack, Function.update_self]
    exact List.mem_cons_self

/-- The start that fails leaves the enclave started, and nothing else in it. -/
theorem Sound.receives_behind_failure (sound : Sound env state)
    (unclean : ¬ StartsCleanly env state (thread, action))
    (stepped : Handlers.step env state (thread, action) = some next) :
    ∃ later final, run (Handlers.step env) next later = some final ∧ ¬ AllOrNothing final := by
  obtain ⟨succeeds, phase, rest, goesOn, top⟩ := start_of_unclean unclean
  obtain ⟨started, failure⟩ := Classical.not_imp.mp fun succeeded =>
    unclean ((startsCleanly_iff goesOn top).mpr succeeded)
  have past : phase.past = true := by
    by_contra before
    exact failure (phase.succeeds_of_not_past (by simpa using before))
  obtain ⟨rfl, notNew, once⟩ := sound.locked_of_past top past
  rcases step_start top past goesOn stepped with ⟨success, -⟩ | ⟨-, middle, fails, rfl⟩
  · exact absurd success failure
  · have context : state.hasReceiveContext = false := by
      by_contra set
      rw [Bool.not_eq_false] at set
      obtain ⟨single, -, owner, holder, member, inContext⟩ := sound.context set
      have held : 0 < (lockUse env).held (state.calls thread) := by
        rw [← sound.lock thread, once]
        exact Nat.one_pos
      have same := sound.lock.exclusive (sound.held_of_inContext single member inContext) held
      rw [same, top, List.mem_singleton] at member
      rw [member] at inContext
      cases inContext
    apply receives_late
    · rw [State.calls_setStack, Function.update_self]
    · change middle.lock.available thread = true
      rw [fails.lock]
      exact ReentrantLock.available_of_released once
    · exact fails.enclaveState.trans started
    · exact fails.startFailed
    · exact fails.context.trans context

end Failures

/-! ## Starts in every run -/

/-- In a run in which no start fails past its transition, unless the enclave has been stopped by
then, no later call of a start that has thrown invokes a receive method.  Each other failure can be
followed by one that does. -/
theorem start_allOrNothing [DecidableEq Thread] (env : EnclaveEnvironment) :
    (∀ inputs final, Meets (step env) (StartsCleanly env) (State.initial Thread) inputs →
        run (step env) (State.initial Thread) inputs = some final → AllOrNothing final) ∧
      ∀ inputs state thread action next,
        run (step env) (State.initial Thread) inputs = some state →
          step env state (thread, action) = some next →
            ¬ StartsCleanly env state (thread, action) →
              ∃ later final, run (step env) next later = some final ∧ ¬ AllOrNothing final := by
  constructor
  · intro inputs final meets ran
    exact allOrNothing_of_meets meets ran
  · intro inputs state thread action next ran stepped unclean
    exact (sound_of_run ran).receives_behind_failure unclean stepped

namespace StartExample

/-- A release enclave whose KDS is for the persistence key too. -/
def env : EnclaveEnvironment where
  kdsConfigured := true
  enablePersistentMap := false
  maxPersistentMapSize := 0
  sealData _ _ := none
  unsealData _ := none
  threadSafe := false
  enclaveMode := .RELEASE
  hasPersistenceKeySpec := true
  localSecretKey := List.replicate 16 1
  inMemoryFileSystemSize := 0
  persistentFileSystemSize := 0
  cipher := OneEntry.exampleCipher

def start : List (Unit × Action) := ((), .start [1]) :: List.replicate 4 ((), .advance true)

/-- The host gives no key for persistence, and calls the enclave all the same. -/
def startWithoutKds : List (Unit × Action) :=
  start ++ ((), .untrustedHost) :: List.replicate 5 ((), .advance true)

/-- The host gives the key first. -/
def startWithKds : List (Unit × Action) :=
  ((), .setKdsPersistenceKey (some (some (List.replicate 16 2)))) ::
    (start ++ List.replicate 2 ((), .advance true) ++ [((), .finish true), ((), .untrustedHost)] ++
      List.replicate 5 ((), .advance true))

end StartExample

open StartExample in
theorem receive_afterFailedStart :
    ¬ ∀ inputs final, run (step env) (State.initial Unit) inputs = some final →
      AllOrNothing final := by
  intro allOrNothing
  have ran : run (step env) (State.initial Unit) startWithoutKds = some _ := rfl
  apply allOrNothing _ _ ran ()
  change _ ∈ [Frame.receive true .receiving]
  exact List.mem_cons_self

open StartExample in
theorem start_allOrNothing_withKds :
    ∃ final, run (step env) (State.initial Unit) startWithKds = some final ∧
      final.calls () = [.receive false .receiving] ∧ AllOrNothing final := by
  have ran : run (step env) (State.initial Unit) startWithKds = some _ := rfl
  have meets : Meets (step env) (StartsCleanly env) (State.initial Unit) startWithKds := by
    decide
  exact ⟨_, ran, rfl, (start_allOrNothing env).1 _ _ meets ran⟩

end Conclave.Enclave.Handlers
