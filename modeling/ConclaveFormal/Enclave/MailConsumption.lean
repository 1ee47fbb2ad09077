import ConclaveFormal.Enclave.OrderingInvariant

/-!
# Mail that is not processed

A delivery can end in an exception before `receiveMail` is called.  From the moment
it holds the lock no other thread moves a watermark, so what such a delivery leaves
behind is what it did itself: nothing, unless its number was counted and the receive
context of an outer call then turned it away.
-/

set_option autoImplicit false

namespace Conclave.Enclave

open Conclave.Lib Conclave.Mail

variable {N : Noise} {Thread : Type} [DecidableEq Thread] [DecidableEq N.PublicKey]

/-! ## Deliveries of bytes -/

/-- What the host does: delivering bytes, of which decryption makes a mail or an
exception, or any other action. -/
inductive Request (N : Noise) where
  | onMail (decrypted : Except StreamException (DecryptedEnclaveMail N))
  | action (action : Action N)

namespace State

/-- Bytes that are not decrypted never get to `executeReceive`. -/
def handle (config : Config) (state : State N Thread) :
    Thread × Request N → Option (State N Thread)
  | (thread, .onMail (.error _)) => if state.canEnter thread then some state else none
  | (thread, .onMail (.ok mail)) => state.step config (thread, .deliverMail mail)
  | (thread, .action action) => state.step config (thread, action)

end State

variable {config : Config} {state next final : State N Thread} {thread : Thread}

theorem Locked.step (locked : Locked config state) {action : Action N}
    (stepped : state.step config (thread, action) = some next) : Locked config next := by
  obtain ⟨_, moved⟩ := (step_effect locked stepped).moved
  exact moved.locked locked

theorem Locked.handle (locked : Locked config state) {input : Thread × Request N}
    (handled : state.handle config input = some next) : Locked config next := by
  obtain ⟨caller, request⟩ := input
  cases request with
  | onMail decrypted =>
      cases decrypted with
      | error problem =>
          rw [State.handle] at handled
          split at handled
          · cases handled
            exact locked
          · cases handled
      | ok mail =>
          have stepped : state.step config (caller, .deliverMail mail) = some next := handled
          exact locked.step stepped
  | action action =>
      have stepped : state.step config (caller, action) = some next := handled
      exact locked.step stepped

/-! ## From the lock to the exception -/

/-- The call of `thread` that is on top of `rest` throws before its receive method is
called; other threads may act in between. -/
inductive Unprocessed (config : Config) (thread : Thread) (rest : List (Frame N)) :
    State N Thread → State N Thread → Prop where
  | throws {state final : State N Thread}
      (stepped : state.step config (thread, .advance) = some final)
      (ended : final.calls thread = rest) : Unprocessed config thread rest state final
  | goesOn {state next final : State N Thread} {frame : Frame N}
      (stepped : state.step config (thread, .advance) = some next)
      (calls : next.calls thread = frame :: rest) (before : frame.phase ≠ .receiving)
      (later : Unprocessed config thread rest next final) :
      Unprocessed config thread rest state final
  | other {state next final : State N Thread} {other : Thread} {action : Action N}
      (different : other ≠ thread) (stepped : state.step config (other, action) = some next)
      (later : Unprocessed config thread rest next final) :
      Unprocessed config thread rest state final

/-- The number of the mail is the one expected next. -/
def Accepts (state : State N Thread) (mail : DecryptedEnclaveMail N) : Prop :=
  ∀ pair, orderedPair mail = some pair → mail.sequenceNumber = state.watermark pair + 1

/-- However the delivery that has just got the lock comes to throw unprocessed, every
watermark is as it was, and the mail is still accepted if it was. -/
def NotConsumed (config : Config) (thread : Thread) (rest : List (Frame N))
    (mail : DecryptedEnclaveMail N) (locked : State N Thread) : Prop :=
  ∀ final, Unprocessed config thread rest locked final →
    (∀ pair, final.watermark pair = locked.watermark pair) ∧
      (Accepts locked mail → Accepts final mail)

/-- The mail is counted and then turned away: it passes the check, but the persistent map
does not let it nest in the call whose receive context is set. -/
def TurnedAway (config : Config) (state : State N Thread) (mail : DecryptedEnclaveMail N) :
    Prop :=
  config.threadSafe = false ∧ config.enablePersistentMap = true ∧
    state.hasReceiveContext = true ∧ state.enclaveState = .started ∧
    ∃ pair, orderedPair mail = some pair ∧ mail.sequenceNumber = state.watermark pair + 1

/-! ## The other threads -/

/-- What nobody else changes while a thread holds the lock. -/
structure SameShared (state next : State N Thread) : Prop where
  watermarks : next.sequenceWatermarks = state.sequenceWatermarks
  context : next.hasReceiveContext = state.hasReceiveContext
  enclaveState : next.enclaveState = state.enclaveState

theorem step_other (locked : Locked config state) {other : Thread} {action : Action N}
    (holds : 0 < holdCount config (state.calls thread)) (different : other ≠ thread)
    (stepped : state.step config (other, action) = some next) : SameShared state next := by
  have unavailable : state.lock.available other = false := by
    rw [← locked.counts] at holds
    exact ReentrantLock.available_of_heldBy holds different
  have outside : ∀ {frame rest}, state.calls other = frame :: rest →
      holdsLock config frame.phase = false := by
    intro frame rest calls
    cases isHeld : holdsLock config frame.phase with
    | false => rfl
    | true =>
        have holdsOther : 0 < holdCount config (state.calls other) := by
          rw [calls]
          exact holdCount_pos isHeld
        exact absurd (locked.exclusive holdsOther holds) different
  unfold State.step at stepped
  cases action with
  | start => simp [unavailable] at stepped
  | stop => simp [unavailable] at stepped
  | deliverMail mail =>
      simp only [State.enter] at stepped
      split at stepped
      · cases stepped
        exact ⟨rfl, rfl, rfl⟩
      · cases stepped
  | callEnclave =>
      simp only [State.enter] at stepped
      split at stepped
      · cases stepped
        exact ⟨rfl, rfl, rfl⟩
      · cases stepped
  | advance =>
      simp only at stepped
      split at stepped
      · cases stepped
      · rename_i frame rest calls
        have free := outside calls
        obtain ⟨purpose, phase, ticket⟩ := frame
        cases phase with
        | entering => simp [State.advance, unavailable] at stepped
        | leaving => simp [State.advance, unavailable] at stepped
        | calling =>
            simp only [State.advance] at stepped
            cases stepped
            cases purpose with
            | mail mail => exact ⟨rfl, rfl, rfl⟩
            | untrustedHost => exact ⟨rfl, rfl, rfl⟩
        | receiving => cases stepped
        | checkingState => cases free
        | lookingUp => cases free
        | comparing => cases free
        | incrementing => cases free
        | starting => cases free
        | sealing => cases free
  | finish returned =>
      simp only at stepped
      split at stepped
      · cases stepped
      · rename_i frame rest calls
        have free := outside calls
        obtain ⟨purpose, phase, ticket⟩ := frame
        simp only [State.finish] at stepped
        split at stepped
        · rename_i receiving
          subst receiving
          have safe : config.threadSafe = true := by simpa [holdsLock] using free
          rw [if_pos safe] at stepped
          cases stepped
          exact ⟨rfl, rfl, rfl⟩
        · cases stepped

theorem calls_other (locked : Locked config state) {other : Thread} {action : Action N}
    (different : other ≠ thread) (stepped : state.step config (other, action) = some next) :
    next.calls thread = state.calls thread := by
  obtain ⟨_, moved⟩ := (step_effect locked stepped).moved
  exact moved.other different.symm

/-! ## The delivery itself -/

variable {start : State N Thread} {rest : List (Frame N)} {mail : DecryptedEnclaveMail N}

/-- How far a delivery that holds the lock has come, and what it did on the way. -/
inductive Progress (start : State N Thread) (mail : DecryptedEnclaveMail N)
    (state : State N Thread) : Phase → Prop where
  | checkingState (same : ∀ pair, state.watermark pair = start.watermark pair) :
      Progress start mail state .checkingState
  | lookingUp {pair : PublicKeyAndTopic N} (ordered : orderedPair mail = some pair)
      (started : start.enclaveState = .started)
      (same : ∀ pair, state.watermark pair = start.watermark pair) :
      Progress start mail state .lookingUp
  | comparing {pair : PublicKeyAndTopic N} (ordered : orderedPair mail = some pair)
      (started : start.enclaveState = .started)
      (same : ∀ pair, state.watermark pair = start.watermark pair) :
      Progress start mail state .comparing
  | incrementing {pair : PublicKeyAndTopic N} (ordered : orderedPair mail = some pair)
      (started : start.enclaveState = .started)
      (number : mail.sequenceNumber = start.watermark pair + 1) :
      Progress start mail state .incrementing
  | unordered (same : ∀ pair, state.watermark pair = start.watermark pair) :
      Progress start mail state .starting
  | counted {pair : PublicKeyAndTopic N} (ordered : orderedPair mail = some pair)
      (started : start.enclaveState = .started)
      (number : mail.sequenceNumber = start.watermark pair + 1) :
      Progress start mail state .starting

omit [DecidableEq Thread] [DecidableEq N.PublicKey] in
theorem Progress.holds {phase : Phase} (progress : Progress start mail state phase)
    (config : Config) : holdsLock config phase = true := by
  cases progress <;> rfl

omit [DecidableEq Thread] [DecidableEq N.PublicKey] in
theorem Progress.congr {phase : Phase} (progress : Progress start mail state phase)
    (same : ∀ pair, next.watermark pair = state.watermark pair) :
    Progress start mail next phase := by
  cases progress with
  | checkingState was => exact .checkingState fun pair => (same pair).trans (was pair)
  | lookingUp ordered started was =>
      exact .lookingUp ordered started fun pair => (same pair).trans (was pair)
  | comparing ordered started was =>
      exact .comparing ordered started fun pair => (same pair).trans (was pair)
  | incrementing ordered started number => exact .incrementing ordered started number
  | unordered was => exact .unordered fun pair => (same pair).trans (was pair)
  | counted ordered started number => exact .counted ordered started number

/-- The delivery holds the lock, or has been let through to `receiveMail`. -/
inductive Stage (start : State N Thread) (thread : Thread) (rest : List (Frame N))
    (mail : DecryptedEnclaveMail N) (state : State N Thread) : Prop where
  | holding {phase : Phase} {ticket : Nat}
      (calls : state.calls thread = ⟨.mail mail, phase, ticket⟩ :: rest)
      (context : state.hasReceiveContext = start.hasReceiveContext)
      (enclaveState : state.enclaveState = start.enclaveState)
      (progress : Progress start mail state phase)
  | calling {ticket : Nat} (calls : state.calls thread = ⟨.mail mail, .calling, ticket⟩ :: rest)

theorem Stage.other (stage : Stage start thread rest mail state) (locked : Locked config state)
    {other : Thread} {action : Action N} (different : other ≠ thread)
    (stepped : state.step config (other, action) = some next) :
    Stage start thread rest mail next := by
  have sameCalls := calls_other locked different stepped
  cases stage with
  | holding calls context enclaveState progress =>
      have holds : 0 < holdCount config (state.calls thread) := by
        rw [calls]
        exact holdCount_pos (progress.holds config)
      have shared := step_other locked holds different stepped
      refine .holding (sameCalls.trans calls) (shared.context.trans context)
        (shared.enclaveState.trans enclaveState) (progress.congr ?_)
      intro pair
      simp only [State.watermark, shared.watermarks]
  | calling calls => exact .calling (sameCalls.trans calls)

/-- What the next step of the delivery can be. -/
inductive Advance (config : Config) (start : State N Thread) (thread : Thread)
    (rest : List (Frame N)) (mail : DecryptedEnclaveMail N) (next : State N Thread) : Prop where
  | stage (stage : Stage start thread rest mail next)
  | received {ticket : Nat}
      (calls : next.calls thread = ⟨.mail mail, .receiving, ticket⟩ :: rest)
  | threw (ended : next.calls thread = rest)
      (same : (∀ pair, next.watermark pair = start.watermark pair) ∨
        TurnedAway config start mail)

omit [DecidableEq N.PublicKey] in
theorem calls_setStack (state : State N Thread) (thread : Thread) (stack : List (Frame N)) :
    (state.setStack thread stack).calls thread = stack := by
  simp [State.setStack]

omit [DecidableEq Thread] in
theorem watermark_computeIfAbsent (state : State N Thread) (looked pair : PublicKeyAndTopic N) :
    (state.computeIfAbsent looked).watermark pair = state.watermark pair := by
  by_cases same : pair = looked
  · subst same
    simp [State.watermark, State.computeIfAbsent]
  · simp [State.watermark, State.computeIfAbsent, Function.update_of_ne same]

omit [DecidableEq N.PublicKey] in
/-- The call is let through, or the receive context of an outer one turns it away. -/
theorem startReceive_cases (config : Config) (state : State N Thread) (thread : Thread)
    (frame : Frame N) (rest : List (Frame N)) :
    (State.startReceive config state thread frame rest).calls thread =
        { frame with phase := .calling } :: rest ∨
      (config.threadSafe = false ∧ config.enablePersistentMap = true ∧
        state.hasReceiveContext = true ∧
        State.startReceive config state thread frame rest = state.unlockAndPop thread rest) := by
  unfold State.startReceive
  cases safe : config.threadSafe with
  | true => exact .inl (calls_setStack _ _ _)
  | false =>
      cases persistent : config.enablePersistentMap with
      | false => exact .inl (calls_setStack _ _ _)
      | true =>
          cases set : state.hasReceiveContext with
          | false => exact .inl (calls_setStack _ _ _)
          | true => exact .inr ⟨rfl, rfl, rfl, rfl⟩

theorem Stage.advance (stage : Stage start thread rest mail state)
    (stepped : state.step config (thread, .advance) = some next) :
    Advance config start thread rest mail next := by
  cases stage with
  | calling calls =>
      simp only [State.step, calls, State.advance] at stepped
      cases stepped
      exact .received (calls_setStack _ _ _)
  | @holding phase ticket calls context enclaveState progress =>
      simp only [State.step, calls] at stepped
      cases progress with
      | checkingState same =>
          simp only [State.advance] at stepped
          split at stepped
          · rename_i started
            cases stepped
            rw [enclaveState] at started
            cases ordered : orderedPair mail with
            | none =>
                have phase : (Purpose.mail mail).preReceive = .starting := by
                  simp [Purpose.preReceive, ordered]
                rw [phase]
                exact .stage (.holding (calls_setStack _ _ _) context enclaveState
                  (.unordered same))
            | some pair =>
                have phase : (Purpose.mail mail).preReceive = .lookingUp := by
                  simp [Purpose.preReceive, ordered]
                rw [phase]
                exact .stage (.holding (calls_setStack _ _ _) context enclaveState
                  (.lookingUp ordered started same))
          · cases stepped
            exact .threw (calls_setStack _ _ _) (.inl same)
      | lookingUp ordered started same =>
          simp only [State.advance, ordered, State.checkOrdering] at stepped
          cases stepped
          refine .stage (.holding (calls_setStack _ _ _) context enclaveState
            (.comparing ordered started ?_))
          intro pair
          exact (watermark_computeIfAbsent state _ pair).trans (same pair)
      | comparing ordered started same =>
          simp only [State.advance, ordered, State.checkOrdering] at stepped
          split at stepped
          · rename_i number
            cases stepped
            rw [same] at number
            exact .stage (.holding (calls_setStack _ _ _) context enclaveState
              (.incrementing ordered started number))
          · cases stepped
            exact .threw (calls_setStack _ _ _) (.inl same)
      | incrementing ordered started number =>
          simp only [State.advance, ordered, State.checkOrdering] at stepped
          cases stepped
          exact .stage (.holding (calls_setStack _ _ _) context enclaveState
            (.counted ordered started number))
      | unordered same =>
          simp only [State.advance] at stepped
          cases stepped
          rcases startReceive_cases config state thread ⟨.mail mail, .starting, ticket⟩ rest with
            calling | ⟨_, _, _, refused⟩
          · exact .stage (.calling calling)
          · rw [refused]
            exact .threw (calls_setStack _ _ _) (.inl same)
      | counted ordered started number =>
          simp only [State.advance] at stepped
          cases stepped
          rcases startReceive_cases config state thread ⟨.mail mail, .starting, ticket⟩ rest with
            calling | ⟨notSafe, persistent, set, refused⟩
          · exact .stage (.calling calling)
          · rw [refused]
            refine .threw (calls_setStack _ _ _) (.inr ⟨notSafe, persistent, ?_, started, _,
              ordered, number⟩)
            rw [← context]
            exact set

/-! ## Exactly when an unprocessed mail is consumed -/

theorem Unprocessed.unconsumed (unprocessed : Unprocessed config thread rest state final)
    (locked : Locked config state) (stage : Stage start thread rest mail state)
    (kept : ¬ TurnedAway config start mail) (pair : PublicKeyAndTopic N) :
    final.watermark pair = start.watermark pair := by
  induction unprocessed with
  | throws stepped ended =>
      cases stage.advance stepped with
      | stage stage =>
          cases stage with
          | holding calls => exact absurd (calls.symm.trans ended) (List.cons_ne_self _ _)
          | calling calls => exact absurd (calls.symm.trans ended) (List.cons_ne_self _ _)
      | received calls => exact absurd (calls.symm.trans ended) (List.cons_ne_self _ _)
      | threw _ same => exact same.resolve_right kept pair
  | goesOn stepped calls before _ ih =>
      cases stage.advance stepped with
      | stage stage => exact ih (locked.step stepped) stage
      | received receiving =>
          rw [receiving] at calls
          cases calls
          exact absurd rfl before
      | threw ended => exact absurd (calls.symm.trans ended) (List.cons_ne_self _ _)
  | other different stepped _ ih =>
      exact ih (locked.step stepped) (stage.other locked different stepped)

theorem step_advance {frame : Frame N} (calls : state.calls thread = frame :: rest) :
    state.step config (thread, .advance) = State.advance config state thread frame rest := by
  simp only [State.step, calls]

omit [DecidableEq N.PublicKey] in
theorem startReceive_refuses (notSafe : config.threadSafe = false)
    (persistent : config.enablePersistentMap = true) (set : state.hasReceiveContext = true)
    (frame : Frame N) :
    State.startReceive config state thread frame rest = state.unlockAndPop thread rest := by
  simp [State.startReceive, notSafe, persistent, set]

/-- Run alone, a mail that is turned away has been counted. -/
theorem TurnedAway.consumed (away : TurnedAway config start mail) {ticket : Nat}
    (calls : start.calls thread = ⟨.mail mail, .checkingState, ticket⟩ :: rest) :
    ∃ final pair, Unprocessed config thread rest start final ∧
      final.watermark pair = start.watermark pair + 1 := by
  obtain ⟨notSafe, persistent, set, started, pair, ordered, number⟩ := away
  let looking := start.setStack thread (⟨.mail mail, .lookingUp, ticket⟩ :: rest)
  let comparing := (looking.computeIfAbsent pair).setStack thread
    (⟨.mail mail, .comparing, ticket⟩ :: rest)
  let incrementing := comparing.setStack thread (⟨.mail mail, .incrementing, ticket⟩ :: rest)
  let counted := (incrementing.increment pair mail).setStack thread
    (⟨.mail mail, .starting, (passedOf pair incrementing.log).length⟩ :: rest)
  have watermark : comparing.watermark pair = start.watermark pair :=
    watermark_computeIfAbsent looking pair pair
  have checked : start.step config (thread, .advance) = some looking := by
    have phase : (Purpose.mail mail).preReceive = .lookingUp := by
      simp [Purpose.preReceive, ordered]
    rw [step_advance calls]
    simp only [State.advance, started, if_true, phase]
    rfl
  have looked : looking.step config (thread, .advance) = some comparing := by
    rw [step_advance (calls_setStack _ _ _)]
    simp only [State.advance, ordered, State.checkOrdering]
    rfl
  have compared : comparing.step config (thread, .advance) = some incrementing := by
    rw [step_advance (calls_setStack _ _ _)]
    simp only [State.advance, ordered, State.checkOrdering]
    rw [watermark, if_pos number]
  have incremented : incrementing.step config (thread, .advance) = some counted := by
    rw [step_advance (calls_setStack _ _ _)]
    simp only [State.advance, ordered, State.checkOrdering]
    rfl
  have refused : counted.step config (thread, .advance) =
      some (counted.unlockAndPop thread rest) := by
    have context : counted.hasReceiveContext = true := set
    rw [step_advance (calls_setStack _ _ _)]
    exact congrArg some (startReceive_refuses notSafe persistent context
      ⟨.mail mail, .starting, (passedOf pair incrementing.log).length⟩)
  refine ⟨counted.unlockAndPop thread rest, pair, ?_, ?_⟩
  · exact .goesOn checked (calls_setStack _ _ _) (by simp)
      (.goesOn looked (calls_setStack _ _ _) (by simp)
      (.goesOn compared (calls_setStack _ _ _) (by simp)
      (.goesOn incremented (calls_setStack _ _ _) (by simp)
      (.throws refused (calls_setStack _ _ _)))))
  · rw [← watermark]
    change (incrementing.increment pair mail).watermark pair = incrementing.watermark pair + 1
    simp [State.increment, State.watermark]

/-- Getting the lock changes nothing that other threads see. -/
theorem acquired_shared {ticket : Nat}
    (calls : state.calls thread = ⟨.mail mail, .entering, ticket⟩ :: rest)
    (acquired : state.step config (thread, .advance) = some start) :
    SameShared state start ∧
      start.calls thread = ⟨.mail mail, .checkingState, ticket⟩ :: rest := by
  rw [step_advance calls] at acquired
  simp only [State.advance] at acquired
  split at acquired
  · cases acquired
    exact ⟨⟨rfl, rfl, rfl⟩, calls_setStack _ _ _⟩
  · cases acquired

omit [DecidableEq Thread] [DecidableEq N.PublicKey] in
theorem SameShared.turnedAway (shared : SameShared state next) :
    TurnedAway config next mail ↔ TurnedAway config state mail := by
  simp only [TurnedAway, State.watermark, shared.watermarks, shared.context, shared.enclaveState]

/-- In every reachable state, a delivery that gets the lock and throws before `receiveMail`
is called leaves every watermark as it was unless the mail is turned away after it was
counted; bytes that cannot be decrypted change nothing. -/
theorem mailConsumption_iff {inputs : List (Thread × Request N)}
    (ran : run (State.handle config) (State.initial N Thread) inputs = some state) :
    (∀ problem next, state.handle config (thread, .onMail (.error problem)) = some next →
      next = state) ∧
    ∀ {ticket : Nat}, state.calls thread = ⟨.mail mail, .entering, ticket⟩ :: rest →
      state.step config (thread, .advance) = some start →
      (NotConsumed config thread rest mail start ↔ ¬ TurnedAway config state mail) := by
  have locked : Locked config state :=
    run_invariant (fun holds handled => holds.handle handled)
      (ordered_initial config).toLocked ran
  refine ⟨?_, ?_⟩
  · intro problem next handled
    rw [State.handle] at handled
    split at handled
    · cases handled
      rfl
    · cases handled
  · intro ticket calls acquired
    obtain ⟨shared, startCalls⟩ := acquired_shared calls acquired
    rw [← shared.turnedAway]
    refine ⟨?_, ?_⟩
    · intro kept away
      obtain ⟨final, pair, unprocessed, counted⟩ := away.consumed startCalls
      have same := (kept final unprocessed).1 pair
      rw [counted] at same
      exact absurd same (by simp)
    · intro kept final unprocessed
      have stage : Stage start thread rest mail start :=
        .holding startCalls rfl rfl (.checkingState fun _ => rfl)
      have same := unprocessed.unconsumed (locked.step acquired) stage kept
      refine ⟨same, ?_⟩
      intro accepts pair ordered
      rw [same pair]
      exact accepts pair ordered

/-- Mail 0 is delivered, and from its callback mail 1. -/
def nestedRequests : List (Fin 1 × Request openNoise) :=
  (0, .action .start) :: (0, .onMail (.ok (numberedMail 0))) ::
    List.replicate 7 (0, .action .advance) ++ [(0, .onMail (.ok (numberedMail 1)))]

def nestedState (config : Config) : State openNoise (Fin 1) :=
  (run (State.handle config) (State.initial openNoise (Fin 1)) nestedRequests).getD
    (State.initial openNoise (Fin 1))

def outerFrame : Frame openNoise := ⟨.mail (numberedMail 0), .receiving, 0⟩

theorem nestedDelivery_consumed :
    run (State.handle ⟨false, true⟩) (State.initial openNoise (Fin 1)) nestedRequests =
        some (nestedState ⟨false, true⟩) ∧
      (nestedState ⟨false, true⟩).calls 0 =
        [⟨.mail (numberedMail 1), .entering, 0⟩, outerFrame] ∧
      ∃ start, (nestedState ⟨false, true⟩).step ⟨false, true⟩ (0, .advance) = some start ∧
        ¬ NotConsumed ⟨false, true⟩ 0 [outerFrame] (numberedMail 1) start := by
  have calls : (nestedState ⟨false, true⟩).calls 0 =
      [⟨.mail (numberedMail 1), .entering, 0⟩, outerFrame] := rfl
  have acquired : (nestedState ⟨false, true⟩).step ⟨false, true⟩ (0, .advance) =
    some _ := rfl
  have away : TurnedAway ⟨false, true⟩ (nestedState ⟨false, true⟩) (numberedMail 1) :=
    ⟨rfl, rfl, rfl, rfl, _, rfl, by decide +kernel⟩
  refine ⟨rfl, calls, _, acquired, ?_⟩
  obtain ⟨shared, startCalls⟩ := acquired_shared calls acquired
  obtain ⟨final, pair, unprocessed, counted⟩ :=
    (shared.turnedAway.mpr away).consumed startCalls
  intro kept
  have same := (kept final unprocessed).1 pair
  rw [counted] at same
  exact absurd same (by simp)

/-- Mail 0 is delivered, and from its callback mail 5. -/
def skippingRequests : List (Fin 1 × Request openNoise) :=
  nestedRequests.dropLast ++ [(0, .onMail (.ok (numberedMail 5)))]

/-- After that many steps of the nested delivery. -/
def skippingState (steps : Nat) : State openNoise (Fin 1) :=
  (run (State.handle ⟨false, true⟩) (State.initial openNoise (Fin 1))
    (skippingRequests ++ List.replicate steps (0, .action .advance))).getD
      (State.initial openNoise (Fin 1))

/-- The nested delivery gets the lock, and throws when its number is checked. -/
theorem mailConsumption_skippedNumber :
    run (State.handle ⟨false, true⟩) (State.initial openNoise (Fin 1)) skippingRequests =
        some (skippingState 0) ∧
      (skippingState 0).step ⟨false, true⟩ (0, .advance) = some (skippingState 1) ∧
      Unprocessed ⟨false, true⟩ 0 [outerFrame] (skippingState 1) (skippingState 4) ∧
      NotConsumed ⟨false, true⟩ 0 [outerFrame] (numberedMail 5) (skippingState 1) := by
  have ran : run (State.handle ⟨false, true⟩) (State.initial openNoise (Fin 1)) skippingRequests =
      some (skippingState 0) := rfl
  have calls : (skippingState 0).calls 0 =
      [⟨.mail (numberedMail 5), .entering, 0⟩, outerFrame] := rfl
  have acquired : (skippingState 0).step ⟨false, true⟩ (0, .advance) = some (skippingState 1) := rfl
  have thrown : Unprocessed ⟨false, true⟩ 0 [outerFrame] (skippingState 3) (skippingState 4) :=
    .throws rfl rfl
  have compared : Unprocessed ⟨false, true⟩ 0 [outerFrame] (skippingState 2) (skippingState 4) :=
    .goesOn rfl (rfl : (skippingState 3).calls 0 =
      [⟨.mail (numberedMail 5), .comparing, 0⟩, outerFrame]) (by decide) thrown
  have looked : Unprocessed ⟨false, true⟩ 0 [outerFrame] (skippingState 1) (skippingState 4) :=
    .goesOn rfl (rfl : (skippingState 2).calls 0 =
      [⟨.mail (numberedMail 5), .lookingUp, 0⟩, outerFrame]) (by decide) compared
  refine ⟨ran, acquired, looked, ((mailConsumption_iff ran).2 calls acquired).mpr ?_⟩
  rintro ⟨_, _, _, _, pair, ordered, number⟩
  cases ordered
  exact absurd number (by decide +kernel)

end Conclave.Enclave
