import ConclaveFormal.Enclave.MailOrdering
import ConclaveFormal.Lib.Indices
import Mathlib.Data.List.Nodup

/-!
# What passes the ordering check

The lock makes the three accesses of the check one: between the comparison and
the increment no other thread touches a watermark.  So the mails that pass for a
sender and topic are numbered by their position, and every mail that reaches
`receiveMail` carries the ticket of a pass of its own.
-/

set_option autoImplicit false

namespace Conclave.Enclave

open Conclave.Lib Conclave.Mail

variable {N : Noise} {Thread : Type}

/-! ## The lock -/

/-- Whether an activation holds the lock; a thread-safe enclave lets go of it
before it calls `receiveMail`. -/
def holdsLock (config : Config) : Phase → Bool
  | .entering | .leaving => false
  | .calling | .receiving => !config.threadSafe
  | _ => true

def holdCount (config : Config) (stack : List (Frame N)) : Nat :=
  stack.countP fun frame => holdsLock config frame.phase

theorem holdCount_cons (config : Config) (frame : Frame N) (rest : List (Frame N)) :
    holdCount config (frame :: rest) =
      holdCount config rest + if holdsLock config frame.phase then 1 else 0 := by
  simp [holdCount, List.countP_cons]

theorem holdCount_pos {config : Config} {frame : Frame N} {rest : List (Frame N)}
    (holds : holdsLock config frame.phase = true) : 0 < holdCount config (frame :: rest) := by
  rw [holdCount_cons, if_pos holds]
  omega

/-- Activations under the innermost one wait for a callback or for the host's
handler of a sealed state. -/
def Nested (stack : List (Frame N)) : Prop :=
  ∀ frame ∈ stack.tail, frame.phase = .receiving ∨ frame.phase = .sealing

section Lock

variable [DecidableEq Thread]

/-- The lock is held once for every activation that holds it. -/
structure Locked (config : Config) (state : State N Thread) : Prop where
  counts : ∀ thread, state.lock.heldBy thread = holdCount config (state.calls thread)
  nested : ∀ thread, Nested (state.calls thread)

/-- The step replaces the stack of its thread and keeps the lock in line with it. -/
structure Moved (config : Config) (state : State N Thread) (thread : Thread)
    (stack : List (Frame N)) (next : State N Thread) : Prop where
  calls : next.calls = Function.update state.calls thread stack
  counts : ∀ other, next.lock.heldBy other =
    if other = thread then holdCount config stack else state.lock.heldBy other
  nested : Nested stack

variable {config : Config} {state next base : State N Thread} {thread : Thread}
  {frame frame' : Frame N} {rest stack : List (Frame N)}

theorem Moved.own (moved : Moved config state thread stack next) : next.calls thread = stack := by
  rw [moved.calls, Function.update_self]

theorem Moved.other (moved : Moved config state thread stack next) {other : Thread}
    (different : other ≠ thread) : next.calls other = state.calls other := by
  rw [moved.calls, Function.update_of_ne different]

theorem Moved.locked (moved : Moved config state thread stack next)
    (locked : Locked config state) : Locked config next := by
  refine ⟨?_, ?_⟩
  · intro other
    rw [moved.counts]
    by_cases same : other = thread
    · subst same
      rw [if_pos rfl, moved.own]
    · rw [if_neg same, moved.other same, locked.counts]
  · intro other
    by_cases same : other = thread
    · subst same
      rw [moved.own]
      exact moved.nested
    · rw [moved.other same]
      exact locked.nested other

theorem Locked.exclusive (locked : Locked config state) {first second : Thread}
    (holdsFirst : 0 < holdCount config (state.calls first))
    (holdsSecond : 0 < holdCount config (state.calls second)) : first = second := by
  rw [← locked.counts] at holdsFirst holdsSecond
  exact ReentrantLock.exclusive holdsFirst holdsSecond

theorem Locked.nested_cons (locked : Locked config state)
    (calls : state.calls thread = frame :: rest) : Nested (frame' :: rest) := by
  have nested := locked.nested thread
  rw [calls] at nested
  exact nested

/-- The innermost activation goes on without touching the lock. -/
theorem Locked.goOn (locked : Locked config state) (calls : state.calls thread = frame :: rest)
    (sameCalls : base.calls = state.calls) (sameLock : base.lock = state.lock)
    (same : holdsLock config frame'.phase = holdsLock config frame.phase) :
    Moved config state thread (frame' :: rest) (base.setStack thread (frame' :: rest)) := by
  refine ⟨?_, ?_, locked.nested_cons calls⟩
  · rw [← sameCalls]
    rfl
  · intro other
    change base.lock.heldBy other = _
    rw [sameLock, locked.counts]
    by_cases own : other = thread
    · subst own
      rw [if_pos rfl, calls, holdCount_cons, holdCount_cons, same]
    · rw [if_neg own]

theorem Locked.acquire (locked : Locked config state)
    (calls : state.calls thread = frame :: rest) (free : state.lock.available thread = true)
    (sameCalls : base.calls = state.calls) (acquired : base.lock = state.lock.acquire thread)
    (before : holdsLock config frame.phase = false)
    (after : holdsLock config frame'.phase = true) :
    Moved config state thread (frame' :: rest) (base.setStack thread (frame' :: rest)) := by
  refine ⟨?_, ?_, locked.nested_cons calls⟩
  · rw [← sameCalls]
    rfl
  · intro other
    change base.lock.heldBy other = _
    rw [acquired, ReentrantLock.heldBy_acquire free, locked.counts]
    by_cases own : other = thread
    · subst own
      simp [calls, holdCount_cons, before, after]
    · rw [if_neg own, if_neg own]
      rfl

/-- Unlocking, whether the activation goes on or ends. -/
theorem Locked.release (locked : Locked config state)
    (calls : state.calls thread = frame :: rest) (sameCalls : base.calls = state.calls)
    (sameLock : base.lock = state.lock) (holds : holdsLock config frame.phase = true)
    (count : holdCount config stack = holdCount config rest) (nested : Nested stack) :
    Moved config state thread stack (base.release.setStack thread stack) := by
  have held : 0 < state.lock.heldBy thread := by
    rw [locked.counts, calls]
    exact holdCount_pos holds
  refine ⟨?_, ?_, nested⟩
  · rw [← sameCalls]
    rfl
  · intro other
    change base.lock.release.heldBy other = _
    rw [sameLock, ReentrantLock.heldBy_release held, locked.counts]
    by_cases own : other = thread
    · subst own
      simp [calls, holdCount_cons, holds, count]
    · rw [if_neg own, if_neg own]
      rfl

theorem nested_tail (locked : Locked config state) (calls : state.calls thread = frame :: rest) :
    ∀ frame ∈ rest, frame.phase = .receiving ∨ frame.phase = .sealing := by
  have nested := locked.nested thread
  rw [calls] at nested
  exact nested

theorem Locked.unlockAndPop (locked : Locked config state)
    (calls : state.calls thread = frame :: rest) (sameCalls : base.calls = state.calls)
    (sameLock : base.lock = state.lock) (holds : holdsLock config frame.phase = true) :
    Moved config state thread rest (base.unlockAndPop thread rest) :=
  locked.release calls sameCalls sameLock holds rfl fun frame member =>
    nested_tail locked calls frame (List.mem_of_mem_tail member)

theorem Locked.pop (locked : Locked config state)
    (calls : state.calls thread = frame :: rest) (sameCalls : base.calls = state.calls)
    (sameLock : base.lock = state.lock) (free : holdsLock config frame.phase = false) :
    Moved config state thread rest (base.setStack thread rest) := by
  refine ⟨?_, ?_, fun frame member => nested_tail locked calls frame (List.mem_of_mem_tail member)⟩
  · rw [← sameCalls]
    rfl
  · intro other
    change base.lock.heldBy other = _
    rw [sameLock, locked.counts]
    by_cases own : other = thread
    · subst own
      simp [calls, holdCount_cons, free]
    · rw [if_neg own]

theorem Locked.push (locked : Locked config state) (purpose : Purpose N)
    (canEnter : state.canEnter thread = true) :
    Moved config state thread (⟨purpose, .entering, 0⟩ :: state.calls thread)
      (state.setStack thread (⟨purpose, .entering, 0⟩ :: state.calls thread)) := by
  refine ⟨rfl, ?_, ?_⟩
  · intro other
    change state.lock.heldBy other = _
    rw [locked.counts]
    by_cases own : other = thread
    · subst own
      simp [holdCount_cons, holdsLock]
    · rw [if_neg own]
  · intro frame member
    rw [List.tail_cons] at member
    unfold State.canEnter at canEnter
    cases calls : state.calls thread with
    | nil => simp [calls] at member
    | cons top below =>
        rw [calls] at member canEnter
        rcases List.mem_cons.mp member with rfl | under
        · simpa using canEnter
        · exact nested_tail locked calls frame under

end Lock

/-! ## Where a mail is between the check and `receiveMail` -/

/-- A mail that has passed and is yet to be handed over, with its ticket. -/
def Frame.pending (frame : Frame N) : Option (DecryptedEnclaveMail N × Nat) :=
  match frame.purpose, frame.phase with
  | .mail mail, .starting | .mail mail, .calling =>
      if (orderedPair mail).isSome then some (mail, frame.ticket) else none
  | _, _ => none

/-- A mail whose number has been compared and not yet counted. -/
def Frame.compared (frame : Frame N) : Option (DecryptedEnclaveMail N) :=
  match frame.purpose, frame.phase with
  | .mail mail, .incrementing => some mail
  | _, _ => none

def pendingOf (stack : List (Frame N)) : Option (DecryptedEnclaveMail N × Nat) :=
  stack.head?.bind Frame.pending

def comparedOf (stack : List (Frame N)) : Option (DecryptedEnclaveMail N) :=
  stack.head?.bind Frame.compared

/-- Activations that wait have no mail on its way. -/
theorem idle_of_nested {rest : List (Frame N)}
    (waiting : ∀ frame ∈ rest, frame.phase = .receiving ∨ frame.phase = .sealing) :
    pendingOf rest = none ∧ comparedOf rest = none := by
  cases rest with
  | nil => exact ⟨rfl, rfl⟩
  | cons top below =>
      obtain ⟨purpose, phase, ticket⟩ := top
      rcases waiting _ (List.mem_cons_self) with phaseEq | phaseEq
      · simp only at phaseEq
        subst phaseEq
        cases purpose <;> exact ⟨rfl, rfl⟩
      · simp only at phaseEq
        subst phaseEq
        cases purpose <;> exact ⟨rfl, rfl⟩

theorem holdCount_of_compared {config : Config} {stack : List (Frame N)}
    {mail : DecryptedEnclaveMail N} (compared : comparedOf stack = some mail) :
    0 < holdCount config stack := by
  cases stack with
  | nil => cases compared
  | cons frame rest =>
      obtain ⟨purpose, phase, ticket⟩ := frame
      cases purpose with
      | untrustedHost => cases compared
      | mail other =>
          cases phase with
          | incrementing => exact holdCount_pos rfl
          | entering => cases compared
          | checkingState => cases compared
          | lookingUp => cases compared
          | comparing => cases compared
          | starting => cases compared
          | calling => cases compared
          | receiving => cases compared
          | sealing => cases compared
          | leaving => cases compared

/-- Behind the state check a mail is looked up, or is not ordered at all. -/
theorem preReceive_idle (config : Config) (frame : Frame N) (rest : List (Frame N)) :
    holdsLock config frame.purpose.preReceive = true ∧
      pendingOf ({ frame with phase := frame.purpose.preReceive } :: rest) = none ∧
      comparedOf ({ frame with phase := frame.purpose.preReceive } :: rest) = none := by
  obtain ⟨purpose, phase, ticket⟩ := frame
  cases purpose with
  | untrustedHost => exact ⟨rfl, rfl, rfl⟩
  | mail mail =>
      cases ordered : orderedPair mail with
      | none =>
          simp [Purpose.preReceive, ordered, holdsLock, pendingOf, comparedOf, Frame.pending,
            Frame.compared]
      | some pair =>
          simp [Purpose.preReceive, ordered, holdsLock, pendingOf, comparedOf, Frame.pending,
            Frame.compared]

variable [DecidableEq Thread] [DecidableEq N.PublicKey]

/-- What a step of `thread` does to the watermarks, to the log and to the mails
on their way. -/
inductive Effect (config : Config) (state : State N Thread) (thread : Thread)
    (next : State N Thread) : Prop
  | quiet (stack : List (Frame N)) (moved : Moved config state thread stack next)
      (log : next.log = state.log)
      (watermark : ∀ pair, next.watermark pair = state.watermark pair)
      (pending : ∀ entry, pendingOf stack = some entry →
        pendingOf (state.calls thread) = some entry)
      (compared : ∀ mail pair, comparedOf stack = some mail → orderedPair mail = some pair →
        comparedOf (state.calls thread) = some mail ∨
          mail.sequenceNumber = state.watermark pair + 1)
  | passed (pair : PublicKeyAndTopic N) (mail : DecryptedEnclaveMail N) (stack : List (Frame N))
      (moved : Moved config state thread stack next) (ordered : orderedPair mail = some pair)
      (was : comparedOf (state.calls thread) = some mail)
      (holds : 0 < holdCount config (state.calls thread))
      (log : next.log = state.log ++ [.passed mail])
      (watermark : ∀ other, next.watermark other =
        if other = pair then state.watermark pair + 1 else state.watermark other)
      (pending : pendingOf stack = some (mail, (passedOf pair state.log).length))
      (compared : comparedOf stack = none)
  | received (mail : DecryptedEnclaveMail N) (ticket : Nat) (stack : List (Frame N))
      (moved : Moved config state thread stack next)
      (log : next.log = state.log ++ [.received mail ticket])
      (watermark : ∀ pair, next.watermark pair = state.watermark pair)
      (was : ∀ pair, orderedPair mail = some pair →
        pendingOf (state.calls thread) = some (mail, ticket))
      (pending : pendingOf stack = none) (compared : comparedOf stack = none)

section Effects

variable {config : Config} {state next base : State N Thread} {thread : Thread}
  {frame frame' : Frame N} {rest stack : List (Frame N)}

/-- A step behind which the thread has no mail on its way. -/
theorem Effect.idle (moved : Moved config state thread stack next)
    (log : next.log = state.log) (watermarks : next.sequenceWatermarks = state.sequenceWatermarks)
    (pending : pendingOf stack = none) (compared : comparedOf stack = none) :
    Effect config state thread next := by
  refine Effect.quiet stack moved log ?_ ?_ ?_
  · intro pair
    simp only [State.watermark, watermarks]
  · intro entry found
    rw [pending] at found
    cases found
  · intro mail pair found
    rw [compared] at found
    cases found

/-- Every way out of an activation. -/
theorem Effect.popped (locked : Locked config state) (calls : state.calls thread = frame :: rest)
    (moved : Moved config state thread rest next) (log : next.log = state.log)
    (watermarks : next.sequenceWatermarks = state.sequenceWatermarks) :
    Effect config state thread next := by
  obtain ⟨pending, compared⟩ := idle_of_nested (nested_tail locked calls)
  exact Effect.idle moved log watermarks pending compared

theorem enter_effect (locked : Locked config state) {purpose : Purpose N}
    (entered : state.enter thread purpose = some next) : Effect config state thread next := by
  unfold State.enter at entered
  split at entered
  · rename_i canEnter
    cases entered
    refine Effect.idle (locked.push purpose canEnter) rfl rfl ?_ ?_
    · cases purpose <;> rfl
    · cases purpose <;> rfl
  · cases entered

theorem checkOrdering_effect (locked : Locked config state)
    (calls : state.calls thread = frame :: rest) {mail : DecryptedEnclaveMail N}
    {pair : PublicKeyAndTopic N} (purpose : frame.purpose = .mail mail)
    (ordered : orderedPair mail = some pair)
    (checked : state.checkOrdering thread mail pair frame rest = some next) :
    Effect config state thread next := by
  obtain ⟨purpose', phase, ticket⟩ := frame
  simp only at purpose
  subst purpose
  cases phase with
  | lookingUp =>
      cases checked
      refine Effect.quiet _ (locked.goOn calls rfl rfl rfl) rfl ?_ ?_ ?_
      · intro other
        by_cases same : other = pair
        · subst same
          simp [State.watermark, State.setStack, State.computeIfAbsent]
        · simp [State.watermark, State.setStack, State.computeIfAbsent, same]
      · intro entry found
        cases found
      · intro other otherPair found
        cases found
  | comparing =>
      simp only [State.checkOrdering] at checked
      split at checked
      · rename_i expected
        cases checked
        refine Effect.quiet _ (locked.goOn calls rfl rfl rfl) rfl (fun _ => rfl) ?_ ?_
        · intro entry found
          cases found
        · intro other otherPair found otherOrdered
          cases found
          rw [ordered] at otherOrdered
          cases otherOrdered
          exact Or.inr expected
      · cases checked
        exact Effect.popped locked calls (locked.unlockAndPop calls rfl rfl rfl) rfl rfl
  | incrementing =>
      cases checked
      refine Effect.passed pair mail _ (locked.goOn calls rfl rfl rfl) ordered ?_ ?_ rfl ?_ ?_ rfl
      · rw [calls]
        rfl
      · rw [calls]
        exact holdCount_pos rfl
      · intro other
        by_cases same : other = pair
        · subst same
          simp [State.watermark, State.setStack, State.increment]
        · simp [State.watermark, State.setStack, State.increment, same]
      · simp [pendingOf, Frame.pending, ordered]
  | entering => cases checked
  | checkingState => cases checked
  | starting => cases checked
  | calling => cases checked
  | receiving => cases checked
  | sealing => cases checked
  | leaving => cases checked

/-- A mail on its way stays on its way. -/
theorem Effect.carried {purpose : Purpose N} {ticket : Nat}
    (calls : state.calls thread = ⟨purpose, .starting, ticket⟩ :: rest)
    (moved : Moved config state thread (⟨purpose, .calling, ticket⟩ :: rest) next)
    (log : next.log = state.log)
    (watermarks : next.sequenceWatermarks = state.sequenceWatermarks) :
    Effect config state thread next := by
  refine Effect.quiet _ moved log ?_ ?_ ?_
  · intro pair
    simp only [State.watermark, watermarks]
  · intro entry found
    rw [calls]
    cases purpose with
    | untrustedHost => cases found
    | mail mail => exact found
  · intro mail pair found
    cases purpose <;> cases found

theorem startReceive_effect (locked : Locked config state)
    (calls : state.calls thread = frame :: rest) (phase : frame.phase = .starting) :
    Effect config state thread (State.startReceive config state thread frame rest) := by
  obtain ⟨purpose, phase', ticket⟩ := frame
  simp only at phase
  subst phase
  unfold State.startReceive
  simp only
  split
  · rename_i threadSafe
    refine Effect.carried calls ?_ rfl rfl
    refine locked.release calls rfl rfl rfl ?_ (locked.nested_cons calls)
    simp [holdCount_cons, holdsLock, threadSafe]
  · rename_i single
    have sameHold : holdsLock config .calling = holdsLock config .starting := by
      simp [holdsLock, single]
    split
    · split
      · exact Effect.popped locked calls (locked.unlockAndPop calls rfl rfl rfl) rfl rfl
      · exact Effect.carried calls (locked.goOn calls rfl rfl sameHold) rfl rfl
    · exact Effect.carried calls (locked.goOn calls rfl rfl sameHold) rfl rfl

theorem callReceive_effect (locked : Locked config state)
    (calls : state.calls thread = frame :: rest) (phase : frame.phase = .calling) :
    Effect config state thread ((state.callReceive frame).setStack thread
      ({ frame with phase := .receiving } :: rest)) := by
  obtain ⟨purpose, phase', ticket⟩ := frame
  simp only at phase
  subst phase
  cases purpose with
  | untrustedHost => exact Effect.idle (locked.goOn calls rfl rfl rfl) rfl rfl rfl rfl
  | mail mail =>
      refine Effect.received mail ticket _ (locked.goOn calls rfl rfl rfl) rfl (fun _ => rfl) ?_
        rfl rfl
      intro pair ordered
      rw [calls]
      simp [pendingOf, Frame.pending, ordered]

theorem advance_effect (locked : Locked config state)
    (calls : state.calls thread = frame :: rest)
    (advanced : State.advance config state thread frame rest = some next) :
    Effect config state thread next := by
  unfold State.advance at advanced
  cases phase : frame.phase with
  | entering =>
      simp only [phase] at advanced
      split at advanced
      · rename_i free
        cases advanced
        refine Effect.idle (locked.acquire calls free rfl rfl (by rw [phase]; rfl) rfl) rfl rfl
          ?_ ?_
        · simp [pendingOf, Frame.pending]
        · simp [comparedOf, Frame.compared]
      · cases advanced
  | checkingState =>
      simp only [phase] at advanced
      split at advanced
      · cases advanced
        obtain ⟨holds, pending, compared⟩ := preReceive_idle config frame rest
        refine Effect.idle (locked.goOn calls rfl rfl ?_) rfl rfl pending compared
        rw [phase]
        exact holds
      · cases advanced
        exact Effect.popped locked calls (locked.unlockAndPop calls rfl rfl (by rw [phase]; rfl))
          rfl rfl
  | lookingUp | comparing | incrementing =>
      simp only [phase] at advanced
      split at advanced
      · cases advanced
      · rename_i mail purpose
        split at advanced
        · cases advanced
        · rename_i pair ordered
          exact checkOrdering_effect locked calls purpose ordered advanced
  | starting =>
      simp only [phase] at advanced
      cases advanced
      exact startReceive_effect locked calls phase
  | calling =>
      simp only [phase] at advanced
      cases advanced
      exact callReceive_effect locked calls phase
  | receiving =>
      simp only [phase] at advanced
      cases advanced
  | sealing =>
      simp only [phase] at advanced
      cases advanced
      exact Effect.popped locked calls (locked.unlockAndPop calls rfl rfl (by rw [phase]; rfl))
        rfl rfl
  | leaving =>
      simp only [phase] at advanced
      split at advanced
      · cases advanced
        exact Effect.popped locked calls (locked.pop calls rfl rfl (by rw [phase]; rfl)) rfl rfl
      · cases advanced

theorem finish_effect (locked : Locked config state)
    (calls : state.calls thread = frame :: rest) {returned : Bool}
    (finished : State.finish config state thread frame rest returned = some next) :
    Effect config state thread next := by
  unfold State.finish at finished
  split at finished
  · rename_i phase
    split at finished
    · rename_i threadSafe
      cases finished
      refine Effect.idle (locked.goOn calls rfl rfl ?_) rfl rfl ?_ ?_
      · rw [phase]
        simp [holdsLock, threadSafe]
      · simp [pendingOf, Frame.pending]
      · simp [comparedOf, Frame.compared]
    · rename_i single
      have holds : holdsLock config frame.phase = true := by
        rw [phase]
        simp [holdsLock, single]
      split at finished
      · simp only at finished
        split at finished
        · cases finished
          refine Effect.idle (locked.goOn calls rfl rfl ?_) rfl rfl ?_ ?_
          · rw [holds]
            rfl
          · simp [pendingOf, Frame.pending]
          · simp [comparedOf, Frame.compared]
        · cases finished
          exact Effect.popped locked calls (locked.unlockAndPop calls rfl rfl holds) rfl rfl
      · cases finished
        exact Effect.popped locked calls (locked.unlockAndPop calls rfl rfl holds) rfl rfl
  · cases finished

/-- Starting and stopping the enclave. -/
theorem Effect.unmoved (locked : Locked config state) (calls : next.calls = state.calls)
    (lock : next.lock = state.lock) (log : next.log = state.log)
    (watermarks : next.sequenceWatermarks = state.sequenceWatermarks) :
    Effect config state thread next := by
  refine Effect.quiet (state.calls thread) ⟨?_, ?_, locked.nested thread⟩ log ?_
    (fun _ found => found) (fun _ _ found _ => Or.inl found)
  · rw [Function.update_eq_self, calls]
  · intro other
    rw [lock, locked.counts]
    by_cases same : other = thread
    · rw [if_pos same, same]
    · rw [if_neg same]
  · intro pair
    simp only [State.watermark, watermarks]

theorem step_effect (locked : Locked config state) {action : Action N}
    (stepped : state.step config (thread, action) = some next) :
    Effect config state thread next := by
  unfold State.step at stepped
  cases action with
  | start =>
      simp only at stepped
      split at stepped
      · cases stepped
        exact Effect.unmoved locked rfl rfl rfl rfl
      · cases stepped
  | stop =>
      simp only at stepped
      split at stepped
      · cases stepped
        exact Effect.unmoved locked rfl rfl rfl rfl
      · cases stepped
  | deliverMail mail => exact enter_effect locked stepped
  | callEnclave => exact enter_effect locked stepped
  | advance =>
      simp only at stepped
      split at stepped
      · cases stepped
      · rename_i frame rest calls
        exact advance_effect locked calls stepped
  | finish returned =>
      simp only at stepped
      split at stepped
      · cases stepped
      · rename_i frame rest calls
        exact finish_effect locked calls stepped

theorem Effect.moved (effect : Effect config state thread next) :
    ∃ stack, Moved config state thread stack next := by
  cases effect with
  | quiet stack moved => exact ⟨stack, moved⟩
  | passed pair mail stack moved => exact ⟨stack, moved⟩
  | received mail ticket stack moved => exact ⟨stack, moved⟩

end Effects

/-! ## The log -/

theorem passedOf_passed (pair : PublicKeyAndTopic N) (log : List (Event N))
    (mail : DecryptedEnclaveMail N) :
    passedOf pair (log ++ [.passed mail]) =
      passedOf pair log ++ if orderedPair mail = some pair then [mail] else [] := by
  by_cases ordered : orderedPair mail = some pair
  · simp [passedOf, List.filterMap_append, ordered]
  · simp [passedOf, List.filterMap_append, ordered]

theorem passedOf_received (pair : PublicKeyAndTopic N) (log : List (Event N))
    (mail : DecryptedEnclaveMail N) (ticket : Nat) :
    passedOf pair (log ++ [.received mail ticket]) = passedOf pair log := by
  simp [passedOf, List.filterMap_append]

theorem receivedOf_passed (pair : PublicKeyAndTopic N) (log : List (Event N))
    (mail : DecryptedEnclaveMail N) :
    receivedOf pair (log ++ [.passed mail]) = receivedOf pair log := by
  simp [receivedOf, List.filterMap_append]

theorem receivedOf_received (pair : PublicKeyAndTopic N) (log : List (Event N))
    (mail : DecryptedEnclaveMail N) (ticket : Nat) :
    receivedOf pair (log ++ [.received mail ticket]) =
      receivedOf pair log ++ if orderedPair mail = some pair then [(mail, ticket)] else [] := by
  by_cases ordered : orderedPair mail = some pair
  · simp [receivedOf, List.filterMap_append, ordered]
  · simp [receivedOf, List.filterMap_append, ordered]

/-! ## Numbered mails -/

/-- The mails carry the numbers 0, 1, 2, …, as 64-bit numbers. -/
def Numbered (mails : List (DecryptedEnclaveMail N)) : Prop :=
  mails.map (fun mail => mail.sequenceNumber) = (List.range mails.length).map (BitVec.ofNat 64)

omit [DecidableEq N.PublicKey] in
theorem numbered_iff (mails : List (DecryptedEnclaveMail N)) :
    Numbered mails ↔
      ∀ (index : Nat) (mail : DecryptedEnclaveMail N), mails[index]? = some mail →
        mail.sequenceNumber = BitVec.ofNat 64 index := by
  constructor
  · intro numbered index mail found
    have entry := congrArg (fun numbers => numbers[index]?) numbered
    obtain ⟨inside, mailEq⟩ := List.getElem?_eq_some_iff.mp found
    simpa [inside, mailEq] using entry
  · intro each
    apply List.ext_getElem?
    intro index
    cases found : mails[index]? with
    | none =>
        have outside := List.getElem?_eq_none_iff.mp found
        simp [outside]
    | some mail =>
        obtain ⟨inside, mailEq⟩ := List.getElem?_eq_some_iff.mp found
        simp [inside, mailEq, each index mail found]

omit [DecidableEq N.PublicKey] in
theorem Numbered.of_prefix {part whole : List (DecryptedEnclaveMail N)}
    (numbered : Numbered whole) (start : part <+: whole) : Numbered part := by
  rw [numbered_iff] at numbered ⊢
  intro index mail found
  obtain ⟨rest, rfl⟩ := start
  have inside := (List.getElem?_eq_some_iff.mp found).1
  exact numbered index mail (by rw [List.getElem?_append_left inside]; exact found)

omit [DecidableEq N.PublicKey] in
theorem Numbered.append_next {mails : List (DecryptedEnclaveMail N)} (numbered : Numbered mails)
    {mail : DecryptedEnclaveMail N} (number : mail.sequenceNumber = BitVec.ofNat 64 mails.length) :
    Numbered (mails ++ [mail]) := by
  unfold Numbered at numbered ⊢
  rw [List.map_append, numbered, List.length_append, List.length_singleton, List.range_succ,
    List.map_append, List.map_singleton, List.map_singleton, number]

omit [DecidableEq N.PublicKey] in
theorem Numbered.nodup {mails : List (DecryptedEnclaveMail N)} (numbered : Numbered mails)
    (few : mails.length ≤ 2 ^ 64) : (mails.map fun mail => mail.sequenceNumber).Nodup := by
  rw [numbered]
  refine List.Nodup.map_on ?_ List.nodup_range
  intro first firstInside second secondInside same
  have values := congrArg BitVec.toNat same
  rw [List.mem_range] at firstInside secondInside
  rw [BitVec.toNat_ofNat, BitVec.toNat_ofNat, Nat.mod_eq_of_lt (by omega),
    Nat.mod_eq_of_lt (by omega)] at values
  exact values

/-! ## The invariant -/

structure Ordered (config : Config) (state : State N Thread) : Prop
    extends Locked config state where
  numbers : ∀ pair, Numbered (passedOf pair state.log)
  watermark : ∀ pair,
    state.watermark pair + 1 = BitVec.ofNat 64 (passedOf pair state.log).length
  compared : ∀ thread mail pair, comparedOf (state.calls thread) = some mail →
    orderedPair mail = some pair → mail.sequenceNumber = state.watermark pair + 1
  granted : ∀ thread mail ticket pair, pendingOf (state.calls thread) = some (mail, ticket) →
    orderedPair mail = some pair → (passedOf pair state.log)[ticket]? = some mail
  distinct : ∀ first second mail mail' ticket pair, first ≠ second →
    pendingOf (state.calls first) = some (mail, ticket) → orderedPair mail = some pair →
    pendingOf (state.calls second) = some (mail', ticket) → orderedPair mail' ≠ some pair
  unused : ∀ thread mail ticket pair, pendingOf (state.calls thread) = some (mail, ticket) →
    orderedPair mail = some pair → ticket ∉ (receivedOf pair state.log).map Prod.snd
  once : ∀ pair, ((receivedOf pair state.log).map Prod.snd).Nodup
  behind : ∀ before mail ticket after pair,
    state.log = before ++ .received mail ticket :: after → orderedPair mail = some pair →
    (passedOf pair before)[ticket]? = some mail

section Preservation

variable {config : Config} {state next : State N Thread} {thread : Thread}
  {stack : List (Frame N)}

theorem ordered_initial (config : Config) : Ordered config (State.initial N Thread) := by
  refine ⟨⟨fun _ => rfl, fun _ _ member => by cases member⟩, fun _ => rfl,
    ?_, ?_, ?_, ?_, ?_, ?_, ?_⟩
  · intro pair
    simp [State.watermark, State.initial, passedOf]
  · intro _ _ _ found
    cases found
  · intro _ _ _ _ found
    cases found
  · intro _ _ _ _ _ _ _ found
    cases found
  · intro _ _ _ _ found
    cases found
  · intro pair
    exact List.nodup_nil
  · intro before mail ticket after pair split
    have length := congrArg List.length split
    simp [State.initial] at length

theorem Ordered.quiet (ordered : Ordered config state)
    (moved : Moved config state thread stack next) (log : next.log = state.log)
    (watermark : ∀ pair, next.watermark pair = state.watermark pair)
    (pending : ∀ entry, pendingOf stack = some entry →
      pendingOf (state.calls thread) = some entry)
    (compared : ∀ mail pair, comparedOf stack = some mail → orderedPair mail = some pair →
      comparedOf (state.calls thread) = some mail ∨
        mail.sequenceNumber = state.watermark pair + 1) :
    Ordered config next := by
  have stillPending : ∀ other entry, pendingOf (next.calls other) = some entry →
      pendingOf (state.calls other) = some entry := by
    intro other entry found
    by_cases same : other = thread
    · subst same
      rw [moved.own] at found
      exact pending entry found
    · rw [moved.other same] at found
      exact found
  refine ⟨moved.locked ordered.toLocked, ?_, ?_, ?_, ?_, ?_, ?_, ?_, ?_⟩
  · rw [log]
    exact ordered.numbers
  · intro pair
    rw [log, watermark]
    exact ordered.watermark pair
  · intro other mail pair found isOrdered
    rw [watermark]
    by_cases same : other = thread
    · subst same
      rw [moved.own] at found
      rcases compared mail pair found isOrdered with before | expected
      · exact ordered.compared other mail pair before isOrdered
      · exact expected
    · rw [moved.other same] at found
      exact ordered.compared other mail pair found isOrdered
  · intro other mail ticket pair found
    rw [log]
    exact ordered.granted other mail ticket pair (stillPending other _ found)
  · intro first second mail mail' ticket pair different foundFirst isOrdered foundSecond
    exact ordered.distinct first second mail mail' ticket pair different
      (stillPending first _ foundFirst) isOrdered (stillPending second _ foundSecond)
  · intro other mail ticket pair found
    rw [log]
    exact ordered.unused other mail ticket pair (stillPending other _ found)
  · rw [log]
    exact ordered.once
  · rw [log]
    exact ordered.behind

theorem Ordered.ticket_lt (ordered : Ordered config state) {mail : DecryptedEnclaveMail N}
    {ticket : Nat} {pair : PublicKeyAndTopic N}
    (found : pendingOf (state.calls thread) = some (mail, ticket))
    (isOrdered : orderedPair mail = some pair) : ticket < (passedOf pair state.log).length :=
  (List.getElem?_eq_some_iff.mp (ordered.granted thread mail ticket pair found isOrdered)).1

/-- A pass stays where it is in a longer log. -/
theorem passedOf_prefix (pair : PublicKeyAndTopic N) (before after : List (Event N)) :
    passedOf pair before <+: passedOf pair (before ++ after) := by
  unfold passedOf
  rw [List.filterMap_append]
  exact List.prefix_append _ _

theorem Ordered.received_valid (ordered : Ordered config state) {pair : PublicKeyAndTopic N}
    {mail : DecryptedEnclaveMail N} {ticket : Nat}
    (member : (mail, ticket) ∈ receivedOf pair state.log) :
    (passedOf pair state.log)[ticket]? = some mail := by
  unfold receivedOf at member
  obtain ⟨event, inLog, kept⟩ := List.mem_filterMap.mp member
  cases event with
  | passed other => cases kept
  | received other ticket' =>
      simp only at kept
      split at kept
      · rename_i isOrdered
        cases kept
        obtain ⟨before, after, split⟩ := List.append_of_mem inLog
        have early := ordered.behind before mail ticket after pair split isOrdered
        have inside := (List.getElem?_eq_some_iff.mp early).1
        obtain ⟨later, whole⟩ := passedOf_prefix pair before (.received mail ticket :: after)
        rw [split, ← whole, List.getElem?_append_left inside]
        exact early
      · cases kept

theorem Ordered.received_lt (ordered : Ordered config state) {pair : PublicKeyAndTopic N}
    {ticket : Nat} (used : ticket ∈ (receivedOf pair state.log).map Prod.snd) :
    ticket < (passedOf pair state.log).length := by
  obtain ⟨⟨mail, ticket'⟩, member, same⟩ := List.mem_map.mp used
  cases same
  exact (List.getElem?_eq_some_iff.mp (ordered.received_valid member)).1

omit [DecidableEq N.PublicKey] in
/-- The thread has the new entry, and the others have those that they had. -/
theorem Moved.pending_cases {other : Thread} {entry added : DecryptedEnclaveMail N × Nat}
    (moved : Moved config state thread stack next) (pending : pendingOf stack = some added)
    (found : pendingOf (next.calls other) = some entry) :
    other = thread ∧ entry = added ∨
      other ≠ thread ∧ pendingOf (state.calls other) = some entry := by
  by_cases same : other = thread
  · rw [same, moved.own, pending] at found
    exact Or.inl ⟨same, (Option.some.inj found).symm⟩
  · rw [moved.other same] at found
    exact Or.inr ⟨same, found⟩

theorem Ordered.passed (ordered : Ordered config state) {pair : PublicKeyAndTopic N}
    {mail : DecryptedEnclaveMail N} (moved : Moved config state thread stack next)
    (isOrdered : orderedPair mail = some pair)
    (was : comparedOf (state.calls thread) = some mail)
    (holds : 0 < holdCount config (state.calls thread))
    (log : next.log = state.log ++ [.passed mail])
    (watermark : ∀ other, next.watermark other =
      if other = pair then state.watermark pair + 1 else state.watermark other)
    (pending : pendingOf stack = some (mail, (passedOf pair state.log).length))
    (compared : comparedOf stack = none) : Ordered config next := by
  have own : passedOf pair next.log = passedOf pair state.log ++ [mail] := by
    rw [log, passedOf_passed, if_pos isOrdered]
  have others : ∀ other, other ≠ pair → passedOf other next.log = passedOf other state.log := by
    intro other different
    have foreign : orderedPair mail ≠ some other := by
      rw [isOrdered]
      exact fun same => different (Option.some.inj same).symm
    rw [log, passedOf_passed, if_neg foreign, List.append_nil]
  have received : ∀ other, receivedOf other next.log = receivedOf other state.log := by
    intro other
    rw [log, receivedOf_passed]
  have number := ordered.compared thread mail pair was isOrdered
  rw [ordered.watermark] at number
  have unique : ∀ {other}, orderedPair mail = some other → other = pair := by
    intro other ofOther
    rw [isOrdered] at ofOther
    exact (Option.some.inj ofOther).symm
  refine ⟨moved.locked ordered.toLocked, ?_, ?_, ?_, ?_, ?_, ?_, ?_, ?_⟩
  · intro other
    by_cases same : other = pair
    · rw [same, own]
      exact (ordered.numbers pair).append_next number
    · rw [others other same]
      exact ordered.numbers other
  · intro other
    rw [watermark]
    by_cases same : other = pair
    · subst same
      rw [if_pos rfl, own, ordered.watermark, List.length_append, List.length_singleton,
        BitVec.ofNat_add]
      rfl
    · rw [if_neg same, others other same]
      exact ordered.watermark other
  · -- Another thread that has compared holds the lock too.
    intro other mail' pair' found isOrdered'
    by_cases same : other = thread
    · subst same
      rw [moved.own, compared] at found
      cases found
    · rw [moved.other same] at found
      exact absurd (ordered.exclusive (holdCount_of_compared found) holds) same
  · intro other mail' ticket pair' found isOrdered'
    rcases moved.pending_cases pending found with ⟨-, same⟩ | ⟨-, before⟩
    · cases same
      rw [unique isOrdered', own, List.getElem?_append_right le_rfl, Nat.sub_self]
      rfl
    · have granted := ordered.granted other mail' ticket pair' before isOrdered'
      by_cases samePair : pair' = pair
      · subst samePair
        rw [own, List.getElem?_append_left (ordered.ticket_lt before isOrdered')]
        exact granted
      · rw [others pair' samePair]
        exact granted
  · -- The new ticket is larger than those that are out.
    intro first second mail₁ mail₂ ticket pair' different foundFirst isOrdered₁
      foundSecond isOrdered₂
    rcases moved.pending_cases pending foundFirst with ⟨isFirst, new⟩ | ⟨-, oldFirst⟩
    · rcases moved.pending_cases pending foundSecond with ⟨isSecond, -⟩ | ⟨-, oldSecond⟩
      · exact different (isFirst.trans isSecond.symm)
      · cases new
        rw [unique isOrdered₁] at isOrdered₂
        exact Nat.lt_irrefl _ (ordered.ticket_lt oldSecond isOrdered₂)
    · rcases moved.pending_cases pending foundSecond with ⟨-, new⟩ | ⟨-, oldSecond⟩
      · cases new
        rw [unique isOrdered₂] at isOrdered₁
        exact Nat.lt_irrefl _ (ordered.ticket_lt oldFirst isOrdered₁)
      · exact ordered.distinct first second mail₁ mail₂ ticket pair' different oldFirst isOrdered₁
          oldSecond isOrdered₂
  · intro other mail' ticket pair' found isOrdered' used
    rw [received] at used
    rcases moved.pending_cases pending found with ⟨-, new⟩ | ⟨-, before⟩
    · cases new
      rw [unique isOrdered'] at used
      exact Nat.lt_irrefl _ (ordered.received_lt used)
    · exact ordered.unused other mail' ticket pair' before isOrdered' used
  · intro other
    rw [received]
    exact ordered.once other
  · intro before mail' ticket after pair' split isOrdered'
    rw [log] at split
    rcases append_singleton_split split with ⟨rest, old⟩ | ⟨_, impossible⟩
    · exact ordered.behind before mail' ticket rest pair' old isOrdered'
    · cases impossible

theorem Ordered.received (ordered : Ordered config state) {mail : DecryptedEnclaveMail N}
    {ticket : Nat} (moved : Moved config state thread stack next)
    (log : next.log = state.log ++ [.received mail ticket])
    (watermark : ∀ pair, next.watermark pair = state.watermark pair)
    (was : ∀ pair, orderedPair mail = some pair →
      pendingOf (state.calls thread) = some (mail, ticket))
    (pending : pendingOf stack = none) (compared : comparedOf stack = none) :
    Ordered config next := by
  have passed : ∀ pair, passedOf pair next.log = passedOf pair state.log := by
    intro pair
    rw [log, passedOf_received]
  have stillPending : ∀ other entry, pendingOf (next.calls other) = some entry →
      other ≠ thread ∧ pendingOf (state.calls other) = some entry := by
    intro other entry found
    by_cases same : other = thread
    · subst same
      rw [moved.own, pending] at found
      cases found
    · rw [moved.other same] at found
      exact ⟨same, found⟩
  refine ⟨moved.locked ordered.toLocked, ?_, ?_, ?_, ?_, ?_, ?_, ?_, ?_⟩
  · intro pair
    rw [passed]
    exact ordered.numbers pair
  · intro pair
    rw [passed, watermark]
    exact ordered.watermark pair
  · intro other mail' pair found isOrdered
    rw [watermark]
    by_cases same : other = thread
    · subst same
      rw [moved.own, compared] at found
      cases found
    · rw [moved.other same] at found
      exact ordered.compared other mail' pair found isOrdered
  · intro other mail' ticket' pair found
    rw [passed]
    exact ordered.granted other mail' ticket' pair (stillPending other _ found).2
  · intro first second mail₁ mail₂ ticket' pair different foundFirst isOrdered foundSecond
    exact ordered.distinct first second mail₁ mail₂ ticket' pair different
      (stillPending first _ foundFirst).2 isOrdered (stillPending second _ foundSecond).2
  · intro other mail' ticket' pair found isOrdered
    obtain ⟨different, before⟩ := stillPending other _ found
    rw [log, receivedOf_received, List.map_append, List.mem_append]
    rintro (old | last)
    · exact ordered.unused other mail' ticket' pair before isOrdered old
    · split at last
      · rename_i isOrdered'
        rw [List.map_singleton, List.mem_singleton] at last
        simp only at last
        subst last
        exact ordered.distinct other thread mail' mail ticket' pair different before isOrdered
          (was pair isOrdered') isOrdered'
      · cases last
  · intro pair
    rw [log, receivedOf_received, List.map_append]
    split
    · rename_i isOrdered
      refine List.Nodup.append (ordered.once pair) (List.nodup_singleton _) ?_
      intro used old last
      rw [List.map_singleton, List.mem_singleton] at last
      rw [last] at old
      exact ordered.unused thread mail ticket pair (was pair isOrdered) isOrdered old
    · simpa using ordered.once pair
  · intro before mail' ticket' after pair split isOrdered
    rw [log] at split
    rcases append_singleton_split split with ⟨rest, old⟩ | ⟨all, last⟩
    · exact ordered.behind before mail' ticket' rest pair old isOrdered
    · cases last
      rw [← all]
      exact ordered.granted thread mail ticket pair (was pair isOrdered) isOrdered

theorem Ordered.step (ordered : Ordered config state) {action : Action N}
    (stepped : state.step config (thread, action) = some next) : Ordered config next := by
  cases step_effect ordered.toLocked stepped with
  | quiet stack moved log watermark pending compared =>
      exact ordered.quiet moved log watermark pending compared
  | passed pair mail stack moved isOrdered was holds log watermark pending compared =>
      exact ordered.passed moved isOrdered was holds log watermark pending compared
  | received mail ticket stack moved log watermark was pending compared =>
      exact ordered.received moved log watermark was pending compared

end Preservation

/-- In every run, and for every sender and topic, the session mails that pass
the check are numbered 0, 1, 2, … in the order in which they pass.  Each mail
that reaches `receiveMail` has a pass of its own, and all lower numbers have
passed before it. -/
theorem mailOrdering {config : Config} {inputs : List (Thread × Action N)}
    {final : State N Thread}
    (ran : run (State.step config) (State.initial N Thread) inputs = some final)
    (pair : PublicKeyAndTopic N) :
    Numbered (passedOf pair final.log) ∧
      ((receivedOf pair final.log).map Prod.fst).Subperm (passedOf pair final.log) ∧
      (∀ before mail ticket after, final.log = before ++ .received mail ticket :: after →
        orderedPair mail = some pair →
        ∃ earlier later, passedOf pair before = earlier ++ mail :: later ∧ Numbered earlier ∧
          mail.sequenceNumber = BitVec.ofNat 64 earlier.length) ∧
      ((passedOf pair final.log).length ≤ 2 ^ 64 →
        ((receivedOf pair final.log).map fun entry => entry.1.sequenceNumber).Nodup) := by
  have ordered : Ordered config final :=
    run_invariant (fun holds stepped => holds.step stepped) (ordered_initial config) ran
  have numbers := ordered.numbers pair
  have part : ((receivedOf pair final.log).map Prod.fst).Subperm (passedOf pair final.log) :=
    subperm_of_positions (ordered.once pair) fun _ member => ordered.received_valid member
  refine ⟨numbers, part, ?_, ?_⟩
  · intro before mail ticket after split isOrdered
    have found := ordered.behind before mail ticket after pair split isOrdered
    obtain ⟨inside, mailEq⟩ := List.getElem?_eq_some_iff.mp found
    have start := passedOf_prefix pair before (.received mail ticket :: after)
    rw [← split] at start
    have early := numbers.of_prefix start
    refine ⟨(passedOf pair before).take ticket, (passedOf pair before).drop (ticket + 1),
      ?_, early.of_prefix (List.take_prefix _ _), ?_⟩
    · rw [← mailEq, List.getElem_cons_drop, List.take_append_drop]
    · rw [List.length_take, Nat.min_eq_left (Nat.le_of_lt inside)]
      exact (numbered_iff _).mp early ticket mail found
  · intro few
    obtain ⟨chosen, perm, sublist⟩ := part
    have distinct := (sublist.map fun mail => mail.sequenceNumber).nodup (numbers.nodup few)
    have same := perm.map fun mail => mail.sequenceNumber
    rw [List.map_map] at same
    exact same.nodup_iff.mp distinct

/-- A session mail of one sender and topic. -/
def numberedMail (sequenceNumber : BitVec 64) : DecryptedEnclaveMail openNoise :=
  ⟨sequenceNumber, [116], (7 : UInt8), none, none, [], none⟩

/-- Thread 0 delivers mail 0, and from its callback mail 1; thread 1 delivers
mail 0 again, which fails. -/
def nestedDeliveries : List (Fin 2 × Action openNoise) :=
  (0, .start) :: (0, .deliverMail (numberedMail 0)) :: List.replicate 7 (0, .advance) ++
    (0, .deliverMail (numberedMail 1)) :: (1, .deliverMail (numberedMail 0)) ::
      List.replicate 7 (0, .advance) ++
    [(0, .finish false), (0, .finish true), (1, .advance), (1, .advance), (1, .advance),
      (1, .advance)]

instance : DecidableEq openNoise.PublicKey := inferInstanceAs (DecidableEq UInt8)

theorem mailOrdering_nestedDeliveries :
    ∃ final : State openNoise (Fin 2),
      run (State.step ⟨false, false⟩) (State.initial openNoise (Fin 2)) nestedDeliveries =
          some final ∧
        (passedOf (N := openNoise) ((7 : UInt8), [116]) final.log).length = 2 ∧
        Numbered (passedOf (N := openNoise) ((7 : UInt8), [116]) final.log) := by
  have passes : (run (State.step ⟨false, false⟩) (State.initial openNoise (Fin 2))
      nestedDeliveries).map (fun state =>
        (passedOf (N := openNoise) ((7 : UInt8), [116]) state.log).length) = some 2 := by
    decide +kernel
  obtain ⟨final, ran, two⟩ := Option.map_eq_some_iff.mp passes
  exact ⟨final, ran, two, (mailOrdering (N := openNoise) ran ((7 : UInt8), [116])).1⟩

end Conclave.Enclave
