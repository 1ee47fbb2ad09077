import ConclaveFormal.Host.CommandsCallback

/-!
# The steps of host threads

What lies on what on the stack of a thread, and what one step can do: most move the innermost
activation and the lock only, some add a command, and two invoke the callback.
-/

set_option autoImplicit false

namespace Conclave.Host.CommandsCallback

open Conclave.Lib

variable {Thread Place : Type} [DecidableEq Thread]

/-! ## What lies on what -/

def ReceivePhase.fits (settings : EnclaveSettings) : ReceivePhase → Prop
  | .sealing | .sealed => settings.sendsSealedState = true
  | .leaving _ => settings.sendsSealedState = false
  | _ => True

def layer (settings : EnclaveSettings) (below : List Frame) : Frame → Prop
  | .callIntoEnclave | .unwinding => hostRuns below = true
  | .receive phase => (∃ rest, below = .callIntoEnclave :: rest) ∧ phase.fits settings
  | .callback => ∃ rest, below = .callIntoEnclave :: rest ∧ .callIntoEnclave ∈ rest
  | .callUntrustedHost _ => enclaveRuns below = true
  | .commandsCallback =>
      if settings.sendsSealedState then ∃ rest, below = .receive .sealed :: rest
      else hostRuns below = true

abbrev Layered (settings : EnclaveSettings) : List Frame → Prop := EachAbove (layer settings)

def lockUse (settings : EnclaveSettings) : LockUse Frame where
  holds
    | .receive phase =>
        match phase with
        | .locking | .leaving _ => false
        | .receiving => !settings.threadSafe
        | _ => true
    | _ => false
  awaits _ := false

/-- If the enclave sends sealed states, then no commands wait behind them. -/
def Clear (stack : List Frame) : Prop :=
  .receive .sealed ∈ stack ∨ ∃ rest, stack = .unwinding :: rest ∧ fullyUnwound rest = true

section Stacks

variable {settings : EnclaveSettings} {stack rest : List Frame} {frame : Frame}

theorem held_eq (stack : List Frame) :
    (lockUse settings).held stack = (lockUse settings).count stack :=
  LockUse.held_of_none fun _ _ => rfl

/-- Only the callback lies on a receive that sends its sealed state. -/
theorem commandsCallback_of_sealed (layered : Layered settings stack)
    (member : .receive .sealed ∈ stack) :
    .commandsCallback ∈ stack ∨ ∃ rest, stack = .receive .sealed :: rest := by
  induction stack with
  | nil => cases member
  | cons frame rest ih =>
      rcases List.mem_cons.mp member with rfl | under
      · exact Or.inr ⟨rest, rfl⟩
      · left
        rcases ih layered.2 under with callback | ⟨below, rfl⟩
        · exact List.mem_cons_of_mem _ callback
        · have here := layered.1
          cases frame with
          | callIntoEnclave => cases here
          | unwinding => cases here
          | receive phase =>
              obtain ⟨⟨other, same⟩, -⟩ := here
              cases same
          | callback =>
              obtain ⟨other, same, -⟩ := here
              cases same
          | callUntrustedHost withCallback => cases here
          | commandsCallback => exact List.mem_cons_self

theorem sealed_of_commandsCallback (seals : settings.sendsSealedState = true)
    (layered : Layered settings stack) (member : .commandsCallback ∈ stack) :
    .receive .sealed ∈ stack := by
  induction stack with
  | nil => cases member
  | cons frame rest ih =>
      rcases List.mem_cons.mp member with rfl | under
      · have here := layered.1
        rw [layer, if_pos seals] at here
        obtain ⟨below, rfl⟩ := here
        exact List.mem_cons_of_mem _ List.mem_cons_self
      · exact List.mem_cons_of_mem _ (ih layered.2 under)

theorem not_clear_of_enclaveRuns (layered : Layered settings stack)
    (runs : enclaveRuns stack = true) (outside : .commandsCallback ∉ stack) : ¬Clear stack := by
  rintro (sealed | ⟨rest, rfl, -⟩)
  · rcases commandsCallback_of_sealed layered sealed with callback | ⟨rest, rfl⟩
    · exact outside callback
    · cases runs
  · cases runs

/-- What a step of a thread without commands does to its stack. -/
structure Shift (settings : EnclaveSettings) (before after : List Frame) : Prop where
  layered : Layered settings after
  fewer : after.count .commandsCallback ≤ before.count .commandsCallback
  clear : settings.sendsSealedState = true → Clear after → Clear before

theorem callIntoEnclave_of_enclaveRuns (layered : Layered settings stack)
    (runs : enclaveRuns stack = true) : .callIntoEnclave ∈ stack := by
  cases stack with
  | nil => cases runs
  | cons frame rest =>
      have here := layered.1
      cases frame with
      | receive phase =>
          obtain ⟨⟨below, rfl⟩, -⟩ := here
          exact List.mem_cons_of_mem _ List.mem_cons_self
      | callback =>
          obtain ⟨below, rfl, -⟩ := here
          exact List.mem_cons_of_mem _ List.mem_cons_self
      | _ => cases runs

theorem inner_of_given (layered : Layered settings stack)
    (given : receiveCallback stack = .given) : .callIntoEnclave ∈ stack := by
  induction stack with
  | nil => cases given
  | cons frame rest ih =>
      cases frame with
      | callUntrustedHost withCallback =>
          exact List.mem_cons_of_mem _ (callIntoEnclave_of_enclaveRuns layered.2 layered.1)
      | _ => exact List.mem_cons_of_mem _ (ih layered.2 given)

theorem Shift.refl (layered : Layered settings stack) : Shift settings stack stack :=
  ⟨layered, Nat.le_refl _, fun _ clear => clear⟩

theorem Shift.trans {before between after : List Frame} (first : Shift settings before between)
    (second : Shift settings between after) : Shift settings before after :=
  ⟨second.layered, Nat.le_trans second.fewer first.fewer,
    fun seals clear => first.clear seals (second.clear seals clear)⟩

theorem Shift.callback {before after : List Frame} (shift : Shift settings before after)
    (member : .commandsCallback ∈ after) : .commandsCallback ∈ before :=
  List.count_pos_iff.mp (Nat.lt_of_lt_of_le (List.count_pos_iff.mpr member) shift.fewer)

theorem Shift.of_clear {before after : List Frame} (layered : Layered settings after)
    (fewer : after.count .commandsCallback ≤ before.count .commandsCallback)
    (working : ∀ rest, after ≠ .unwinding :: rest)
    (sealed : .receive .sealed ∈ after → .receive .sealed ∈ before) :
    Shift settings before after := by
  refine ⟨layered, fewer, ?_⟩
  rintro - (still | ⟨rest, unwinds, -⟩)
  · exact Or.inl (sealed still)
  · exact absurd unwinds (working rest)

theorem Shift.push {above : List Frame} (layered : Layered settings (above ++ stack))
    (quiet : ∀ frame ∈ above, frame ≠ .commandsCallback ∧ frame ≠ .receive .sealed)
    (working : ∀ rest, above ++ stack ≠ .unwinding :: rest) :
    Shift settings stack (above ++ stack) := by
  have none : above.count .commandsCallback = 0 :=
    List.count_eq_zero.mpr fun member => (quiet _ member).1 rfl
  refine .of_clear layered (Nat.le_of_eq ?_) working ?_
  · rw [List.count_append, none, Nat.zero_add]
  · intro member
    rcases List.mem_append.mp member with new | old
    · exact absurd rfl (quiet _ new).2
    · exact old

theorem Shift.pop (layered : Layered settings (frame :: rest))
    (working : ∀ below, rest ≠ .unwinding :: below) : Shift settings (frame :: rest) rest := by
  refine .of_clear layered.2 ?_ working fun member => List.mem_cons_of_mem _ member
  rw [List.count_cons]
  exact Nat.le_add_right _ _

theorem hostRuns_not_unwinding (runs : hostRuns stack = true) (below : List Frame) :
    stack ≠ .unwinding :: below := by
  rintro rfl
  cases runs

theorem enclaveRuns_not_unwinding (runs : enclaveRuns stack = true) (below : List Frame) :
    stack ≠ .unwinding :: below := by
  rintro rfl
  cases runs

/-- The receive goes on. -/
theorem Shift.phase {phase later : ReceivePhase}
    (layered : Layered settings (.receive phase :: rest))
    (fits : later.fits settings) (sealed : later = .sealed → phase = .sealed) :
    Shift settings (.receive phase :: rest) (.receive later :: rest) := by
  refine .of_clear ⟨⟨layered.1.1, fits⟩, layered.2⟩ ?_ ?_ ?_
  · simp
  · rintro below ⟨⟩
  · intro member
    rcases List.mem_cons.mp member with same | under
    · cases sealed (Frame.receive.inj same).symm
      exact List.mem_cons_self
    · exact List.mem_cons_of_mem _ under

/-- The enclave is done with a call that its own activation was the whole of. -/
theorem Shift.unwind (returned : Bool)
    (layered : Layered settings (frame :: .callIntoEnclave :: rest))
    (done : returned = true → settings.sendsSealedState = true →
      frame = .receive .sealed ∨ .callIntoEnclave ∈ rest) :
    Shift settings (frame :: .callIntoEnclave :: rest)
      (CommandsCallback.unwind returned (.callIntoEnclave :: rest)) := by
  obtain ⟨-, host, below⟩ := layered
  have fewer : rest.count .commandsCallback ≤
      (frame :: .callIntoEnclave :: rest).count .commandsCallback :=
    ((List.sublist_cons_self _ _).trans (List.sublist_cons_self _ _)).count_le _
  have under : ∀ {other}, other ∈ rest → other ∈ frame :: .callIntoEnclave :: rest :=
    fun member => List.mem_cons_of_mem _ (List.mem_cons_of_mem _ member)
  cases returned with
  | false => exact .of_clear below fewer (hostRuns_not_unwinding host) under
  | true =>
      refine ⟨⟨host, below⟩, ?_, ?_⟩
      · simpa [CommandsCallback.unwind] using fewer
      · rintro seals (sealed | ⟨other, same, unwound⟩)
        · rcases List.mem_cons.mp sealed with same | member
          · cases same
          · exact Or.inl (under member)
        · cases same
          rcases done rfl seals with rfl | inner
          · exact Or.inl List.mem_cons_self
          · simp [fullyUnwound, inner] at unwound

theorem count_unwind (returned : Bool) (rest : List Frame) :
    (lockUse settings).count (unwind returned rest) = (lockUse settings).count rest := by
  cases rest with
  | nil => rfl
  | cons frame below =>
      cases frame with
      | callIntoEnclave => cases returned <;> rfl
      | _ => rfl

end Stacks

/-! ## What a step can do -/

section Steps

variable {settings : EnclaveSettings} {state next : State Thread Place} {thread : Thread}
  {rest stack : List Frame}

/-- No command is added or handed over. -/
structure Quiet (settings : EnclaveSettings) (state next : State Thread Place) (thread : Thread)
    (stack : List Frame) : Prop where
  shift : Shift settings (state.calls thread) stack
  lock : (lockUse settings).Matches next.lock (Function.update state.calls thread stack)
  calls : next.calls = state.calls
  mailCommands : next.mailCommands = state.mailCommands
  posted : next.posted = state.posted
  handedOver : next.handedOver = state.handedOver

inductive Effect (settings : EnclaveSettings) (state : State Thread Place) (thread : Thread) :
    Action Place → State Thread Place → Prop
  | quiet {action : Action Place} {next : State Thread Place} {stack : List Frame}
      (quiet : Quiet settings state next thread stack) :
      Effect settings state thread action (next.setStack thread stack)
  | posts {mail : Option (NumberedMail Place)} (runs : enclaveRuns (state.calls thread) = true) :
      Effect settings state thread (.postMail mail) (state.onMail thread mail)
  | seals {rest : List Frame} (top : state.calls thread = .receive .sealing :: rest) :
      Effect settings state thread (.advance true)
        ((state.onSealedState thread).setStack thread
          (.commandsCallback :: .receive .sealed :: rest))
  | ends {succeeds : Bool} {rest : List Frame} (top : state.calls thread = .unwinding :: rest)
      (unwound : fullyUnwound rest = true) (waiting : state.mailCommands thread ≠ []) :
      Effect settings state thread (.advance succeeds)
        ((state.fireMailCommands thread).setStack thread (.commandsCallback :: rest))

variable (inLine : (lockUse settings).Matches state.lock state.calls)

include inLine

theorem Quiet.same (shift : Shift settings (state.calls thread) stack)
    (held : (lockUse settings).count stack = (lockUse settings).count (state.calls thread)) :
    Quiet settings state state thread stack := by
  refine ⟨shift, inLine.keep ?_, rfl, rfl, rfl, rfl⟩
  rw [held_eq, held_eq, held]

theorem Quiet.acquires (shift : Shift settings (state.calls thread) stack)
    (free : state.lock.available thread = true)
    (held : (lockUse settings).count stack = (lockUse settings).count (state.calls thread) + 1) :
    Quiet settings state (state.acquire thread) thread stack := by
  refine ⟨shift, inLine.acquire free ?_, rfl, rfl, rfl, rfl⟩
  rw [held_eq, held_eq, held]

theorem Quiet.releases (shift : Shift settings (state.calls thread) stack)
    (held : (lockUse settings).count (state.calls thread) = (lockUse settings).count stack + 1) :
    Quiet settings state state.release thread stack := by
  refine ⟨shift, inLine.release ?_, rfl, rfl, rfl, rfl⟩
  rw [held_eq, held_eq, held]

omit inLine in
theorem Quiet.inContext (quiet : Quiet settings state next thread stack)
    (hasReceiveContext : Bool) :
    Quiet settings state { next with hasReceiveContext } thread stack :=
  { quiet with }

omit inLine in
theorem setStack_self (state : State Thread Place) (thread : Thread) :
    state.setStack thread (state.calls thread) = state := by
  rw [State.setStack, Function.update_eq_self]

theorem quiet_enters (layered : Layered settings (state.calls thread))
    (host : hostRuns (state.calls thread) = true) :
    Quiet settings state state thread
      (.receive .locking :: .callIntoEnclave :: state.calls thread) := by
  have entered :
      Layered settings ([.receive .locking, .callIntoEnclave] ++ state.calls thread) :=
    ⟨⟨⟨_, rfl⟩, trivial⟩, host, layered⟩
  refine .same inLine (.push entered (by simp) (by rintro rest ⟨⟩)) ?_
  simp [LockUse.count_cons, lockUse]

section Receive

variable {phase : ReceivePhase} (layered : Layered settings (state.calls thread))
  (top : state.calls thread = .receive phase :: .callIntoEnclave :: rest)

include layered top

omit [DecidableEq Thread] inLine in
theorem shift_phase (later : ReceivePhase) (fits : later.fits settings) (other : later ≠ .sealed) :
    Shift settings (state.calls thread) (.receive later :: .callIntoEnclave :: rest) := by
  rw [top] at layered ⊢
  exact .phase layered fits fun same => absurd same other

omit [DecidableEq Thread] inLine in
theorem shift_unwind {returned : Bool}
    (done : returned = true → settings.sendsSealedState = true → phase = .sealed) :
    Shift settings (state.calls thread) (unwind returned (.callIntoEnclave :: rest)) := by
  rw [top] at layered ⊢
  refine .unwind returned layered fun returns seals => Or.inl ?_
  rw [done returns seals]

/-- The receive goes on and keeps the lock, or goes on without it. -/
theorem quiet_goesOn (later : ReceivePhase) (fits : later.fits settings) (other : later ≠ .sealed)
    (same : (lockUse settings).holds (.receive later) = (lockUse settings).holds (.receive phase)) :
    Quiet settings state state thread (.receive later :: .callIntoEnclave :: rest) := by
  refine .same inLine (shift_phase layered top later fits other) ?_
  simp only [top, LockUse.count_cons, same]

/-- The receive ends, and `withLock` with it. -/
theorem quiet_unlocks {returned : Bool} (holds : (lockUse settings).holds (.receive phase) = true)
    (done : returned = true → settings.sendsSealedState = true → phase = .sealed) :
    Quiet settings state state.release thread (unwind returned (.callIntoEnclave :: rest)) := by
  refine .releases inLine (shift_unwind layered top done) ?_
  rw [top, count_unwind, LockUse.count_cons, if_pos holds]

/-- Nothing is asked of a call that throws. -/
theorem quiet_throws (holds : (lockUse settings).holds (.receive phase) = true) :
    Quiet settings state state.release thread (unwind false (.callIntoEnclave :: rest)) :=
  quiet_unlocks inLine layered top holds fun returned => by cases returned

end Receive

theorem quiet_startReceive (layered : Layered settings (state.calls thread))
    (top : state.calls thread = .receive .preReceive :: .callIntoEnclave :: rest) :
    Quiet settings state (state.startReceive settings (.callIntoEnclave :: rest)).1 thread
      (state.startReceive settings (.callIntoEnclave :: rest)).2 := by
  rw [State.startReceive]
  cases threadSafe : settings.threadSafe with
  | true =>
      rw [if_pos rfl]
      apply Quiet.releases inLine (shift_phase layered top .receiving trivial (by simp))
      rw [top]
      simp [LockUse.count_cons, lockUse, threadSafe]
  | false =>
      have locked : Quiet settings state state thread
          (.receive .receiving :: .callIntoEnclave :: rest) := by
        apply quiet_goesOn inLine layered top .receiving trivial (by simp)
        simp [lockUse, threadSafe]
      rw [if_neg Bool.false_ne_true]
      cases settings.enablePersistentMap with
      | false => exact locked
      | true =>
          rw [if_pos rfl]
          cases state.hasReceiveContext with
          | false => exact locked.inContext true
          | true => exact quiet_throws inLine layered top rfl

theorem effect_advanceReceive {succeeds : Bool} {phase : ReceivePhase}
    (layered : Layered settings (state.calls thread))
    (top : state.calls thread = .receive phase :: rest)
    (advanced : state.advanceReceive settings thread rest succeeds phase = some (next, stack)) :
    Effect settings state thread (.advance succeeds) (next.setStack thread stack) := by
  have whole := layered
  rw [top] at whole
  obtain ⟨⟨⟨below, rfl⟩, fits⟩, -⟩ := whole
  cases phase with
  | locking =>
      obtain ⟨free, acquired⟩ := Option.ite_none_right_eq_some.mp advanced
      cases acquired
      have shifted := shift_phase layered top .preReceive trivial (by simp)
      refine .quiet (.acquires inLine shifted free ?_)
      simp only [top, LockUse.count_cons]
      rfl
  | preReceive =>
      cases succeeds with
      | false =>
          cases advanced
          exact .quiet (quiet_throws inLine layered top rfl)
      | true =>
          have result := Prod.mk.inj (Option.some.inj advanced)
          rw [← result.1, ← result.2]
          exact .quiet (quiet_startReceive inLine layered top)
  | receiving => cases advanced
  | sealing =>
      cases succeeds with
      | false =>
          cases advanced
          exact .quiet (quiet_throws inLine layered top rfl)
      | true =>
          cases advanced
          exact .seals top
  | sealed =>
      cases advanced
      exact .quiet (quiet_unlocks inLine layered top rfl fun _ _ => rfl)
  | leaving returned =>
      obtain ⟨-, left⟩ := Option.ite_none_right_eq_some.mp advanced
      cases left
      have unsealed : settings.sendsSealedState = false := fits
      refine .quiet (.same inLine (shift_unwind layered top fun _ seals => ?_) ?_)
      · rw [unsealed] at seals
        cases seals
      · rw [top, count_unwind]
        rfl

theorem effect_advance {succeeds : Bool} (layered : Layered settings (state.calls thread))
    (advanced : state.advance settings thread succeeds (state.calls thread) = some (next, stack)) :
    Effect settings state thread (.advance succeeds) (next.setStack thread stack) := by
  cases top : state.calls thread with
  | nil =>
      rw [top] at advanced
      cases advanced
  | cons frame rest =>
      have whole := layered
      rw [top] at advanced whole
      cases frame with
      | receive phase => exact effect_advanceReceive inLine layered top advanced
      | unwinding =>
          have pops : Shift settings (state.calls thread) rest := by
            rw [top]
            exact .pop whole (hostRuns_not_unwinding whole.1)
          rw [State.advance, State.endCall] at advanced
          by_cases fires : (fullyUnwound rest && !(state.mailCommands thread).isEmpty) = true
          · rw [if_pos fires] at advanced
            cases advanced
            simp only [Bool.and_eq_true, Bool.not_eq_true', List.isEmpty_eq_false_iff] at fires
            exact .ends top fires.1 fires.2
          · rw [if_neg fires] at advanced
            cases advanced
            refine .quiet (.same inLine pops ?_)
            rw [top, LockUse.count_cons]
            rfl
      | callIntoEnclave => cases advanced
      | callback => cases advanced
      | callUntrustedHost withCallback => cases advanced
      | commandsCallback => cases advanced

theorem quiet_finishReceive {returned : Bool} (layered : Layered settings (state.calls thread))
    (top : state.calls thread = .receive .receiving :: .callIntoEnclave :: rest) :
    Quiet settings state (state.finishReceive settings (.callIntoEnclave :: rest) returned).1 thread
      (state.finishReceive settings (.callIntoEnclave :: rest) returned).2 := by
  rw [State.finishReceive]
  cases threadSafe : settings.threadSafe with
  | true =>
      rw [if_pos rfl]
      apply quiet_goesOn inLine layered top (.leaving returned) ?_ (by simp)
      · simp [lockUse, threadSafe]
      · simp [ReceivePhase.fits, EnclaveSettings.sendsSealedState, threadSafe]
  | false =>
      have locked : (lockUse settings).holds (.receive .receiving) = true := by
        simp [lockUse, threadSafe]
      rw [if_neg Bool.false_ne_true]
      cases persistent : settings.enablePersistentMap with
      | false =>
          have released : Quiet settings state state.release thread
              (unwind returned (.callIntoEnclave :: rest)) := by
            refine quiet_unlocks inLine layered top locked fun _ seals => ?_
            simp [EnclaveSettings.sendsSealedState, persistent] at seals
          exact released
      | true =>
          rw [if_pos rfl]
          cases returned with
          | false => exact (quiet_throws inLine layered top locked).inContext false
          | true =>
              have sealing : Quiet settings state state thread
                  (.receive .sealing :: .callIntoEnclave :: rest) := by
                apply quiet_goesOn inLine layered top .sealing ?_ (by simp) locked.symm
                simp [ReceivePhase.fits, EnclaveSettings.sendsSealedState, threadSafe, persistent]
              exact sealing.inContext false

/-- Only under a sealed state can the callback's exception leave a call that holds the lock. -/
theorem quiet_finishCommandsCallback {returned : Bool}
    (layered : Layered settings (state.calls thread))
    (top : state.calls thread = .commandsCallback :: rest) :
    Quiet settings state (state.finishCommandsCallback returned rest).1 thread
      (state.finishCommandsCallback returned rest).2 := by
  have whole := layered
  rw [top] at whole
  have count : (lockUse settings).count (state.calls thread) = (lockUse settings).count rest := by
    rw [top, LockUse.count_cons]
    rfl
  have here := whole.1
  rw [layer] at here
  cases seals : settings.sendsSealedState with
  | false =>
      rw [if_neg (by rw [seals]; exact Bool.false_ne_true)] at here
      have pops : state.finishCommandsCallback returned rest = (state, rest) := by
        unfold State.finishCommandsCallback
        split
        · cases here
        · rfl
      rw [pops]
      refine .same inLine ?_ count.symm
      rw [top]
      exact .pop whole (hostRuns_not_unwinding here)
  | true =>
      rw [if_pos seals] at here
      obtain ⟨below, rfl⟩ := here
      obtain ⟨⟨last, rfl⟩, -⟩ := whole.2.1
      have pops := Shift.pop whole fun other same => by cases same
      cases returned with
      | true =>
          refine .same inLine ?_ count.symm
          rw [top]
          exact pops
      | false =>
          have released : Quiet settings state state.release thread
              (unwind false (.callIntoEnclave :: last)) := by
            refine .releases inLine ?_ ?_
            · rw [top]
              exact pops.trans (.unwind false whole.2 fun same => by cases same)
            · rw [count, count_unwind, LockUse.count_cons]
              rfl
          exact released

theorem effect_finish {returned : Bool} (layered : Layered settings (state.calls thread))
    (finished : state.finish settings returned (state.calls thread) = some (next, stack)) :
    Effect settings state thread (.finish returned) (next.setStack thread stack) := by
  cases top : state.calls thread with
  | nil =>
      rw [top] at finished
      cases finished
  | cons frame rest =>
      have whole := layered
      rw [top] at finished whole
      have count : (lockUse settings).count (state.calls thread) =
          (lockUse settings).count rest + if (lockUse settings).holds frame then 1 else 0 := by
        rw [top, LockUse.count_cons]
      cases frame with
      | callIntoEnclave => cases finished
      | unwinding => cases finished
      | receive phase =>
          cases phase with
          | receiving =>
              obtain ⟨⟨⟨below, rfl⟩, -⟩, -⟩ := whole
              have result := Prod.mk.inj (Option.some.inj finished)
              rw [← result.1, ← result.2]
              exact .quiet (quiet_finishReceive inLine layered top)
          | _ => cases finished
      | callback =>
          cases finished
          obtain ⟨below, rfl, inner⟩ := whole.1
          refine .quiet (.same inLine ?_ ?_)
          · rw [top]
            exact .unwind returned whole fun _ _ => Or.inr inner
          · rw [count, count_unwind]
            rfl
      | callUntrustedHost withCallback =>
          cases finished
          refine .quiet (.same inLine ?_ count.symm)
          rw [top]
          exact .pop whole (enclaveRuns_not_unwinding whole.1)
      | commandsCallback =>
          have result := Prod.mk.inj (Option.some.inj finished)
          rw [← result.1, ← result.2]
          exact .quiet (quiet_finishCommandsCallback inLine layered top)

theorem quiet_callEnclave (layered : Layered settings (state.calls thread))
    (host : hostRuns (state.calls thread) = true) :
    Quiet settings state state thread (state.callEnclave settings thread (state.calls thread)) := by
  have refl : Quiet settings state state thread (state.calls thread) :=
    .same inLine (.refl layered) rfl
  rw [State.callEnclave]
  cases callback : receiveCallback (state.calls thread) with
  | receiveFromUntrustedHost => exact quiet_enters inLine layered host
  | absent => exact refl
  | given =>
      have inner : .callIntoEnclave ∈ state.calls thread := inner_of_given layered callback
      by_cases held : (settings.threadSafe || 0 < state.lock.heldBy thread) = true
      · simp only [held, if_true]
        have entered : Layered settings ([.callback, .callIntoEnclave] ++ state.calls thread) :=
          ⟨⟨_, rfl, inner⟩, host, layered⟩
        refine .same inLine (.push entered (by simp) (by rintro rest ⟨⟩)) ?_
        simp [LockUse.count_cons, lockUse]
      · simp only [held]
        exact refl

omit inLine in
/-- A call of the host, which throws at once if the enclave has not started. -/
theorem effect_call {action : Action Place} (stays : Effect settings state thread action state)
    (entered : hostRuns (state.calls thread) = true → Quiet settings state state thread stack)
    (called : (if hostRuns (state.calls thread) then
        if settings.refusesStart then some state else some (state.setStack thread stack)
      else none) = some next) : Effect settings state thread action next := by
  obtain ⟨host, called⟩ := Option.ite_none_right_eq_some.mp called
  cases refuses : settings.refusesStart with
  | true =>
      rw [refuses] at called
      cases called
      exact stays
  | false =>
      rw [refuses] at called
      cases called
      exact .quiet (entered host)

variable [DecidableEq Place]

theorem effect_step {action : Action Place} (layered : Layered settings (state.calls thread))
    (stepped : step settings state (thread, action) = some next) :
    Effect settings state thread action next := by
  have refl : Quiet settings state state thread (state.calls thread) :=
    .same inLine (.refl layered) rfl
  have stays : Effect settings state thread action (state.setStack thread (state.calls thread)) :=
    .quiet refl
  rw [setStack_self] at stays
  cases action with
  | deliverMail decrypts =>
      apply effect_call stays ?_ stepped
      intro host
      cases decrypts with
      | false => exact refl
      | true => exact quiet_enters inLine layered host
  | callEnclave => exact effect_call stays (quiet_callEnclave inLine layered) stepped
  | advance succeeds =>
      obtain ⟨⟨middle, stack⟩, advanced, rfl⟩ := Option.map_eq_some_iff.mp stepped
      exact effect_advance inLine layered advanced
  | encryptMail place =>
      cases runs : enclaveRuns (state.calls thread) with
      | false => simp [step, runs] at stepped
      | true =>
          simp only [step, runs, if_true] at stepped
          cases stepped
          let numbered : State Thread Place :=
            { state with
              sequenceNumbers :=
                Function.update state.sequenceNumbers place (state.sequenceNumbers place + 1) }
          have quiet : Quiet settings state numbered thread (numbered.calls thread) :=
            { refl with }
          have effect : Effect settings state thread (.encryptMail place)
              (numbered.setStack thread (numbered.calls thread)) := .quiet quiet
          rw [setStack_self] at effect
          exact effect
  | postMail mail =>
      rw [step] at stepped
      split at stepped
      · rename_i enabled
        cases stepped
        exact .posts enabled.1
      · cases stepped
  | callUntrustedHost withCallback =>
      cases runs : enclaveRuns (state.calls thread) with
      | false => simp [step, runs] at stepped
      | true =>
          simp only [step, runs, if_true] at stepped
          cases stepped
          have out : Layered settings ([.callUntrustedHost withCallback] ++ state.calls thread) :=
            ⟨runs, layered⟩
          refine .quiet (.same inLine (.push out (by simp) (by rintro rest ⟨⟩)) ?_)
          simp [LockUse.count_cons, lockUse]
  | finish returned =>
      obtain ⟨⟨middle, stack⟩, finished, rfl⟩ := Option.map_eq_some_iff.mp stepped
      exact effect_finish inLine layered finished

end Steps

end Conclave.Host.CommandsCallback
