import ConclaveFormal.Lib.Bytes
import ConclaveFormal.Lib.Transition

/-!
# Mail commands on the host

Every host thread has a `Transaction` with the state of its calls into the
enclave and the mail commands the enclave has produced.  Commands are fired when
the enclave emits a sealed state and when the outermost call has unwound.  A
body that throws fires nothing, and nothing clears the list, so the commands of
a failed call wait for the next one on the thread.

A thread does one thing at a time: host code calls into the enclave, the enclave
sends a message or ends its call, a callback of the host ends.  Which of the
possible ones comes next is up to the run.
-/

set_option autoImplicit false

namespace Conclave.Host

open Conclave.Lib

inductive MailCommand where
  | postMail (encryptedBytes : Bytes) (routingHint : Option String)
  | storeSealedState (sealedState : Bytes)
  deriving DecidableEq, Repr

/-- A command with its number in the order in which the thread's commands have
been produced; the code has the command only. -/
structure Produced where
  number : Nat
  command : MailCommand
  deriving DecidableEq, Repr

/-- `IntoEnclave` objects are told apart by identity, here by the number of
activations under them. -/
inductive CallState where
  | ready
  | intoEnclave (depth : Nat) (hasCallback : Bool)
  | response (bytes : Bytes)
  deriving DecidableEq, Repr

def CallState.isResponse : CallState → Bool
  | response _ => true
  | _ => false

/-- What a thread is inside of: a call into the enclave, with the state to go
back to and its own, or host code that was called from there. -/
inductive Activation where
  | call (previous intoEnclave : CallState)
  | callback
  deriving DecidableEq, Repr

/-- An outermost call that has ended: what was produced and what was fired
while it ran, and whether it threw. -/
structure Record where
  produced : List Produced
  fired : List Produced
  threw : Bool
  deriving DecidableEq, Repr

/-- The last five fields are for the specification only. -/
structure Transaction where
  callState : CallState
  mailCommands : List Produced
  activations : List Activation
  count : Nat
  produced : List Produced
  fired : List Produced
  abandoned : Bool
  records : List Record
  deriving DecidableEq, Repr

inductive Event where
  | callIntoEnclave (hasCallback : Bool)
  | onMail (encryptedBytes : Bytes) (routingHint : Option String)
  | onUntrustedHost
  | onCallReturn (bytes : Bytes)
  | onSealedState (sealedState : Bytes)
  | callbackEnds
  | bodyEnds (threw : Bool)
  deriving DecidableEq, Repr

/-- The messages the enclave sends to the host. -/
def Event.isMessage : Event → Bool
  | callIntoEnclave _ | callbackEnds | bodyEnds _ => false
  | _ => true

namespace Transaction

def new : Transaction where
  callState := .ready
  mailCommands := []
  activations := []
  count := 0
  produced := []
  fired := []
  abandoned := false
  records := []

def fireMailCommands (transaction : Transaction) : Transaction :=
  { transaction with
    mailCommands := []
    fired := transaction.fired ++ transaction.mailCommands }

def addMailCommand (transaction : Transaction) (command : MailCommand) : Transaction :=
  { transaction with
    mailCommands := transaction.mailCommands ++ [⟨transaction.count, command⟩]
    count := transaction.count + 1
    produced := transaction.produced ++ [⟨transaction.count, command⟩] }

/-- Host code runs at the top of the thread and in callbacks. -/
def hostRuns (transaction : Transaction) : Bool :=
  match transaction.activations with
  | [] | .callback :: _ => true
  | .call _ _ :: _ => false

def callIntoEnclave (transaction : Transaction) (hasCallback : Bool) : Transaction :=
  let intoEnclaveState := .intoEnclave transaction.activations.length hasCallback
  if transaction.callState.isResponse then { transaction with callState := intoEnclaveState }
  else
    { transaction with
      callState := intoEnclaveState
      activations := .call transaction.callState intoEnclaveState :: transaction.activations }

/-- A message of the enclave.  In any other state than `IntoEnclave` the handler
throws at once; the exception is the enclave's to deal with. -/
def handleCall (transaction : Transaction) (event : Event) : Transaction :=
  match transaction.callState with
  | .intoEnclave _ hasCallback =>
      match event with
      | .onMail encryptedBytes routingHint =>
          transaction.addMailCommand (.postMail encryptedBytes routingHint)
      | .onUntrustedHost =>
          if hasCallback then
            { transaction with activations := .callback :: transaction.activations }
          else transaction
      | .onCallReturn bytes => { transaction with callState := .response bytes }
      | .onSealedState sealedState =>
          let fired :=
            (transaction.addMailCommand (.storeSealedState sealedState)).fireMailCommands
          { fired with activations := .callback :: transaction.activations }
      | _ => transaction
  | _ => transaction

/-- The `finally` of `callIntoEnclave`. -/
def revertState (callState previous intoEnclave : CallState) : CallState :=
  if callState = intoEnclave then previous
  else if callState.isResponse then previous
  else callState

/-- The books are closed when the outermost call ends. -/
def closeRecord (transaction : Transaction) (threw : Bool) : Transaction :=
  if transaction.activations = [] then
    { transaction with
      produced := []
      fired := []
      abandoned := transaction.abandoned || threw && !transaction.mailCommands.isEmpty
      records := transaction.records ++ [⟨transaction.produced, transaction.fired, threw⟩] }
  else transaction

def bodyEnds (transaction : Transaction) (previous intoEnclave : CallState)
    (rest : List Activation) (threw : Bool) : Transaction :=
  let reverted : Transaction :=
    { transaction with
      callState := revertState transaction.callState previous intoEnclave
      activations := rest }
  let final :=
    if threw = false ∧ reverted.callState = .ready ∧ reverted.mailCommands ≠ [] then
      reverted.fireMailCommands
    else reverted
  final.closeRecord threw

def step (transaction : Transaction) : Event → Option Transaction
  | .callIntoEnclave hasCallback =>
      if transaction.hostRuns then some (transaction.callIntoEnclave hasCallback) else none
  | .callbackEnds =>
      match transaction.activations with
      | .callback :: rest => some { transaction with activations := rest }
      | _ => none
  | .bodyEnds threw =>
      match transaction.activations with
      | .call previous intoEnclave :: rest =>
          some (transaction.bodyEnds previous intoEnclave rest threw)
      | _ => none
  | event => if transaction.hostRuns then none else some (transaction.handleCall event)

end Transaction

/-! ## All threads -/

variable {Thread : Type} [DecidableEq Thread]

/-- `threadIDToTransaction`, with a new transaction for threads not seen yet. -/
def stepThread (transactions : Thread → Transaction) :
    Thread × Event → Option (Thread → Transaction)
  | (thread, event) =>
      ((transactions thread).step event).map (Function.update transactions thread)

/-! ## The contract -/

/-- What an outermost call fires are commands it has produced, in their order,
and all of them if it completes. -/
def Record.Transactional (record : Record) : Prop :=
  if record.threw then record.fired <+: record.produced else record.fired = record.produced

/-- The same for all calls of a thread, the one that is running included. -/
def Transaction.Transactional (transaction : Transaction) : Prop :=
  (∀ record ∈ transaction.records, record.Transactional) ∧
    transaction.fired <+: transaction.produced

/-- The step hands commands to `commandsCallback`. -/
def Transaction.fires (transaction : Transaction) : Event → Bool
  | .onSealedState _ =>
      match transaction.callState with
      | .intoEnclave _ _ => !transaction.hostRuns
      | _ => false
  | .bodyEnds false =>
      match transaction.activations with
      | [.call _ _] => !transaction.mailCommands.isEmpty
      | _ => false
  | _ => false

/-- No commands are fired on a thread on which an outermost call has thrown
before its commands were fired. -/
def NeverAfterAbandoned : (Thread → Transaction) → List (Thread × Event) → Prop
  | _, [] => True
  | transactions, (thread, event) :: rest =>
      ((transactions thread).fires event = true → (transactions thread).abandoned = false) ∧
        ∀ next, stepThread transactions (thread, event) = some next →
          NeverAfterAbandoned next rest

/-! ## Call states follow the activations -/

/-- The state while the innermost activation runs. -/
def expectedState : List Activation → CallState
  | [] => .ready
  | .call _ intoEnclave :: _ => intoEnclave
  | .callback :: rest => expectedState rest

def Stacked : List Activation → Prop
  | [] => True
  | .call previous intoEnclave :: rest =>
      previous = expectedState rest ∧
        (∃ hasCallback, intoEnclave = .intoEnclave rest.length hasCallback) ∧ Stacked rest
  | .callback :: rest =>
      Stacked rest ∧ ∃ previous intoEnclave below, rest = .call previous intoEnclave :: below

namespace Transaction

/-- `Response` is seen only between the enclave's answer and the end of its call. -/
structure Coherent (transaction : Transaction) : Prop where
  stacked : Stacked transaction.activations
  callState : transaction.callState = expectedState transaction.activations ∨
    transaction.callState.isResponse = true ∧ transaction.hostRuns = false

theorem expectedState_cases {activations : List Activation} (stacked : Stacked activations) :
    activations = [] ∧ expectedState activations = .ready ∨
      activations ≠ [] ∧ ∃ depth hasCallback,
        expectedState activations = .intoEnclave depth hasCallback := by
  induction activations with
  | nil => exact Or.inl ⟨rfl, rfl⟩
  | cons activation rest ih =>
      right
      refine ⟨List.cons_ne_nil _ _, ?_⟩
      cases activation with
      | call previous intoEnclave =>
          obtain ⟨_, ⟨hasCallback, own⟩, _⟩ := stacked
          exact ⟨_, hasCallback, own⟩
      | callback =>
          obtain ⟨below, _, _, _, nonempty⟩ := stacked
          rcases ih below with ⟨empty, _⟩ | ⟨_, found⟩
          · rw [empty] at nonempty
            cases nonempty
          · exact found

theorem expectedState_not_response {activations : List Activation}
    (stacked : Stacked activations) : (expectedState activations).isResponse = false := by
  rcases expectedState_cases stacked with ⟨_, ready⟩ | ⟨_, depth, hasCallback, into⟩
  · rw [ready]
    rfl
  · rw [into]
    rfl

theorem Coherent.host {transaction : Transaction} (coherent : Coherent transaction)
    (host : transaction.hostRuns = true) :
    transaction.callState = expectedState transaction.activations := by
  rcases coherent.callState with expected | ⟨_, enclave⟩
  · exact expected
  · rw [host] at enclave
    cases enclave

/-- Ending the call on top goes back to the state under it. -/
theorem Coherent.revertState {transaction : Transaction} (coherent : Coherent transaction)
    {previous intoEnclave : CallState} {rest : List Activation}
    (top : transaction.activations = .call previous intoEnclave :: rest) :
    revertState transaction.callState previous intoEnclave = expectedState rest := by
  have stacked := coherent.stacked
  rw [top] at stacked
  obtain ⟨below, _, _⟩ := stacked
  rcases coherent.callState with expected | ⟨response, _⟩
  · have own : transaction.callState = intoEnclave := by
      rw [expected, top]
      rfl
    rw [Transaction.revertState, if_pos own]
    exact below
  · by_cases own : transaction.callState = intoEnclave
    · rw [Transaction.revertState, if_pos own]
      exact below
    · rw [Transaction.revertState, if_neg own, if_pos response]
      exact below

theorem closeRecord_callState (transaction : Transaction) (threw : Bool) :
    (transaction.closeRecord threw).callState = transaction.callState := by
  unfold closeRecord
  split <;> rfl

theorem closeRecord_activations (transaction : Transaction) (threw : Bool) :
    (transaction.closeRecord threw).activations = transaction.activations := by
  unfold closeRecord
  split <;> rfl

theorem Coherent.bodyEnds {transaction : Transaction} (coherent : Coherent transaction)
    {previous intoEnclave : CallState} {rest : List Activation} (threw : Bool)
    (top : transaction.activations = .call previous intoEnclave :: rest) :
    Coherent (transaction.bodyEnds previous intoEnclave rest threw) := by
  have stacked := coherent.stacked
  rw [top] at stacked
  have reverted := coherent.revertState top
  unfold Transaction.bodyEnds
  refine ⟨?_, Or.inl ?_⟩
  · rw [closeRecord_activations]
    split
    · exact stacked.2.2
    · exact stacked.2.2
  · rw [closeRecord_callState, closeRecord_activations]
    split
    · exact reverted
    · exact reverted

theorem Coherent.handleCall {transaction : Transaction} (coherent : Coherent transaction)
    (enclave : transaction.hostRuns = false) (event : Event) :
    Coherent (transaction.handleCall event) := by
  obtain ⟨previous, intoEnclave, rest, top⟩ : ∃ previous intoEnclave rest,
      transaction.activations = .call previous intoEnclave :: rest := by
    unfold hostRuns at enclave
    split at enclave
    · cases enclave
    · cases enclave
    · rename_i previous intoEnclave rest top
      exact ⟨previous, intoEnclave, rest, top⟩
  unfold Transaction.handleCall
  cases state : transaction.callState with
  | ready => exact coherent
  | response bytes => exact coherent
  | intoEnclave depth hasCallback =>
      have expected : transaction.callState = expectedState transaction.activations := by
        rcases coherent.callState with expected | ⟨response, _⟩
        · exact expected
        · rw [state] at response
          cases response
      have called : Stacked (.callback :: transaction.activations) :=
        ⟨coherent.stacked, previous, intoEnclave, rest, top⟩
      cases event with
      | onMail encryptedBytes routingHint => exact ⟨coherent.stacked, coherent.callState⟩
      | onUntrustedHost =>
          simp only
          split
          · exact ⟨called, Or.inl (state.symm.trans expected)⟩
          · exact coherent
      | onCallReturn bytes => exact ⟨coherent.stacked, Or.inr ⟨rfl, enclave⟩⟩
      | onSealedState sealedState => exact ⟨called, Or.inl expected⟩
      | callIntoEnclave => exact coherent
      | callbackEnds => exact coherent
      | bodyEnds => exact coherent

theorem Coherent.callIntoEnclave {transaction : Transaction} (coherent : Coherent transaction)
    (host : transaction.hostRuns = true) (hasCallback : Bool) :
    transaction.callIntoEnclave hasCallback =
        { transaction with
          callState := .intoEnclave transaction.activations.length hasCallback
          activations := .call transaction.callState
            (.intoEnclave transaction.activations.length hasCallback) ::
              transaction.activations } ∧
      Coherent (transaction.callIntoEnclave hasCallback) := by
  have expected := coherent.host host
  have answered : transaction.callState.isResponse = false := by
    rw [expected]
    exact expectedState_not_response coherent.stacked
  have pushed : transaction.callIntoEnclave hasCallback =
      { transaction with
        callState := .intoEnclave transaction.activations.length hasCallback
        activations := .call transaction.callState
          (.intoEnclave transaction.activations.length hasCallback) ::
            transaction.activations } := by
    simp [Transaction.callIntoEnclave, answered]
  rw [pushed]
  exact ⟨rfl, ⟨expected, ⟨hasCallback, rfl⟩, coherent.stacked⟩, Or.inl rfl⟩

/-! ## The books of a thread -/

/-- The commands waiting are those of abandoned calls, `leftover`, and then
those of the running call that have not been fired. -/
structure Split (transaction : Transaction) (leftover pending : List Produced) : Prop where
  waiting : transaction.mailCommands = leftover ++ pending
  running : transaction.produced = transaction.fired ++ pending
  abandoned : transaction.abandoned = true ↔ leftover ≠ []
  old : ∀ command ∈ leftover, command.number < transaction.count ∧
    command ∉ transaction.produced
  numbered : ∀ command ∈ pending, command.number < transaction.count

structure Kept (transaction : Transaction) : Prop extends Coherent transaction where
  split : ∃ leftover pending, Split transaction leftover pending
  closed : ∀ record ∈ transaction.records, record.Transactional

theorem Kept.transactional {transaction : Transaction} (kept : Kept transaction) :
    transaction.Transactional := by
  obtain ⟨leftover, pending, split⟩ := kept.split
  refine ⟨kept.closed, ?_⟩
  rw [split.running]
  exact List.prefix_append _ _

/-- Something has been fired that the call which fired it has not produced. -/
def Broken (transaction : Transaction) : Prop :=
  (∃ record ∈ transaction.records, ¬ record.Transactional) ∨
    ∃ command ∈ transaction.fired, command.number < transaction.count ∧
      command ∉ transaction.produced

theorem Broken.not_transactional {transaction : Transaction} (broken : Broken transaction) :
    ¬ transaction.Transactional := by
  rintro ⟨closed, start⟩
  rcases broken with ⟨record, member, violated⟩ | ⟨command, fired, _, foreign⟩
  · exact violated (closed record member)
  · exact foreign (start.subset fired)

theorem kept_new : Kept new := by
  refine ⟨⟨trivial, Or.inl rfl⟩, ⟨[], [], rfl, rfl, ?_, ?_, ?_⟩, ?_⟩
  · simp [new]
  · intro command member
    cases member
  · intro command member
    cases member
  · intro record member
    cases member

/-- A new command has a number that no old one has. -/
theorem Split.addMailCommand {transaction : Transaction} {leftover pending : List Produced}
    (split : Split transaction leftover pending) (command : MailCommand) :
    Split (transaction.addMailCommand command) leftover
      (pending ++ [⟨transaction.count, command⟩]) := by
  refine ⟨?_, ?_, split.abandoned, ?_, ?_⟩
  · change transaction.mailCommands ++ _ = _
    rw [split.waiting, List.append_assoc]
  · change transaction.produced ++ _ = transaction.fired ++ _
    rw [split.running, List.append_assoc]
  · intro other member
    obtain ⟨small, foreign⟩ := split.old other member
    refine ⟨Nat.lt_succ_of_lt small, ?_⟩
    change other ∉ transaction.produced ++ _
    rw [List.mem_append, List.mem_singleton]
    rintro (old | same)
    · exact foreign old
    · rw [same] at small
      exact Nat.lt_irrefl _ small
  · intro other member
    rcases List.mem_append.mp member with old | last
    · exact Nat.lt_succ_of_lt (split.numbered other old)
    · rw [List.mem_singleton.mp last]
      exact Nat.lt_succ_self _

/-- Firing is right when there is nothing left over. -/
theorem Split.fireMailCommands {transaction : Transaction} {pending : List Produced}
    (split : Split transaction [] pending) : Split transaction.fireMailCommands [] [] := by
  refine ⟨rfl, ?_, split.abandoned, ?_, ?_⟩
  · change transaction.produced = (transaction.fired ++ transaction.mailCommands) ++ []
    rw [split.waiting, split.running, List.nil_append, List.append_nil]
  · intro command member
    cases member
  · intro command member
    cases member

theorem Split.leftover_nil {transaction : Transaction} {leftover pending : List Produced}
    (split : Split transaction leftover pending) (clean : transaction.abandoned = false) :
    leftover = [] := by
  by_contra some
  rw [split.abandoned.mpr some] at clean
  cases clean

theorem Split.broken {transaction : Transaction} {leftover pending : List Produced}
    (split : Split transaction leftover pending) (dirty : transaction.abandoned = true) :
    Broken transaction.fireMailCommands := by
  right
  obtain ⟨command, member⟩ := List.exists_mem_of_ne_nil _ (split.abandoned.mp dirty)
  refine ⟨command, ?_, split.old command member⟩
  change command ∈ transaction.fired ++ transaction.mailCommands
  rw [split.waiting]
  simp [member]

theorem Split.numbers {transaction : Transaction} {leftover pending : List Produced}
    (split : Split transaction leftover pending) :
    ∀ command ∈ transaction.mailCommands, command.number < transaction.count := by
  intro command member
  rw [split.waiting] at member
  rcases List.mem_append.mp member with old | new
  · exact (split.old command old).1
  · exact split.numbered command new

/-- The end of the outermost call: what is waiting now is left over. -/
theorem Split.closeRecord {transaction : Transaction} {leftover pending : List Produced}
    (split : Split transaction leftover pending) (outermost : transaction.activations = [])
    (threw : Bool) (complete : threw = false → transaction.mailCommands = []) :
    Split (transaction.closeRecord threw) transaction.mailCommands [] := by
  simp only [Transaction.closeRecord, if_pos outermost]
  refine ⟨(List.append_nil _).symm, rfl, ?_, ?_, ?_⟩
  · simp only [Bool.or_eq_true, split.abandoned, Bool.and_eq_true, Bool.not_eq_true',
      List.isEmpty_eq_false_iff, ne_eq]
    constructor
    · rintro (old | ⟨_, waiting⟩)
      · rw [split.waiting]
        exact fun none => old (List.append_eq_nil_iff.mp none).1
      · exact waiting
    · intro waiting
      cases threw with
      | true => exact Or.inr ⟨rfl, waiting⟩
      | false => exact absurd (complete rfl) waiting
  · intro command member
    exact ⟨split.numbers command member, List.not_mem_nil⟩
  · intro command member
    cases member

/-- The state of the thread after a call, before anything is fired. -/
def reverted (transaction : Transaction) (previous intoEnclave : CallState)
    (rest : List Activation) : Transaction :=
  { transaction with
    callState := revertState transaction.callState previous intoEnclave
    activations := rest }

theorem bodyEnds_inner {transaction : Transaction} (coherent : Coherent transaction)
    {previous intoEnclave : CallState} {rest : List Activation} (threw : Bool)
    (top : transaction.activations = .call previous intoEnclave :: rest) (inner : rest ≠ []) :
    transaction.bodyEnds previous intoEnclave rest threw =
      transaction.reverted previous intoEnclave rest := by
  have stacked := coherent.stacked
  rw [top] at stacked
  have busy : revertState transaction.callState previous intoEnclave ≠ .ready := by
    rw [coherent.revertState top]
    rcases expectedState_cases stacked.2.2 with ⟨empty, _⟩ | ⟨_, depth, hasCallback, into⟩
    · exact absurd empty inner
    · rw [into]
      exact fun impossible => by cases impossible
  simp [Transaction.bodyEnds, busy, Transaction.closeRecord, inner, reverted]

theorem bodyEnds_threw (transaction : Transaction) (previous intoEnclave : CallState)
    (rest : List Activation) :
    transaction.bodyEnds previous intoEnclave rest true =
      (transaction.reverted previous intoEnclave rest).closeRecord true := by
  simp [Transaction.bodyEnds, reverted]

theorem fireMailCommands_none {transaction : Transaction}
    (none : transaction.mailCommands = []) : transaction.fireMailCommands = transaction := by
  cases transaction
  simp only at none
  subst none
  simp [Transaction.fireMailCommands]

theorem bodyEnds_returned {transaction : Transaction} (coherent : Coherent transaction)
    {previous intoEnclave : CallState}
    (top : transaction.activations = [.call previous intoEnclave]) :
    transaction.bodyEnds previous intoEnclave [] false =
      (transaction.reverted previous intoEnclave []).fireMailCommands.closeRecord false := by
  have ready : revertState transaction.callState previous intoEnclave = .ready :=
    coherent.revertState top
  unfold Transaction.bodyEnds
  simp only [ready, true_and]
  split
  · simp only [reverted, ready]
  · rename_i none
    rw [fireMailCommands_none (by simpa [reverted] using none)]
    simp only [reverted, ready]

/-- The record of the outermost call, if what it has fired is right. -/
theorem Kept.closeRecord {transaction : Transaction} {leftover pending : List Produced}
    (split : Split transaction leftover pending)
    (closed : ∀ record ∈ transaction.records, record.Transactional) (threw : Bool)
    (outermost : transaction.activations = []) (coherent : Coherent transaction)
    (complete : threw = false → transaction.mailCommands = []) :
    Kept (transaction.closeRecord threw) := by
  refine ⟨⟨?_, ?_⟩, ⟨_, _, split.closeRecord outermost threw complete⟩, ?_⟩
  · rw [closeRecord_activations]
    exact coherent.stacked
  · rw [closeRecord_callState, closeRecord_activations]
    have host : transaction.hostRuns = true := by simp [hostRuns, outermost]
    exact Or.inl (coherent.host host)
  · simp only [Transaction.closeRecord, if_pos outermost]
    intro record member
    rcases List.mem_append.mp member with old | last
    · exact closed record old
    · rw [List.mem_singleton.mp last]
      unfold Record.Transactional
      cases threw with
      | true =>
          rw [if_pos rfl]
          simp only
          rw [split.running]
          exact List.prefix_append _ _
      | false =>
          have none : pending = [] := by
            have waiting := split.waiting
            rw [complete rfl] at waiting
            exact (List.append_eq_nil_iff.mp waiting.symm).2
          rw [if_neg (by simp)]
          simp only
          rw [split.running, none, List.append_nil]

theorem Kept.bodyEnds {transaction : Transaction} (kept : Kept transaction)
    {previous intoEnclave : CallState} {rest : List Activation} {threw : Bool}
    (top : transaction.activations = .call previous intoEnclave :: rest)
    (clean : transaction.fires (.bodyEnds threw) = true → transaction.abandoned = false) :
    Kept (transaction.bodyEnds previous intoEnclave rest threw) := by
  have coherent := kept.toCoherent
  obtain ⟨leftover, pending, split⟩ := kept.split
  have after : Split (transaction.reverted previous intoEnclave rest) leftover pending :=
    ⟨split.waiting, split.running, split.abandoned, split.old, split.numbered⟩
  have stacked := coherent.stacked
  rw [top] at stacked
  have coherentAfter : Coherent (transaction.reverted previous intoEnclave rest) :=
    ⟨stacked.2.2, Or.inl (coherent.revertState top)⟩
  by_cases inner : rest = []
  · subst inner
    cases threw with
    | true =>
        rw [bodyEnds_threw]
        exact Kept.closeRecord after kept.closed true rfl coherentAfter (by simp)
    | false =>
        have nothing : leftover = [] := by
          by_cases waiting : transaction.mailCommands = []
          · have parts := split.waiting
            rw [waiting] at parts
            exact (List.append_eq_nil_iff.mp parts.symm).1
          · exact split.leftover_nil (clean (by simp [fires, top, waiting]))
        rw [nothing] at after
        rw [bodyEnds_returned coherent top]
        exact Kept.closeRecord after.fireMailCommands kept.closed false rfl
          ⟨coherentAfter.stacked, coherentAfter.callState⟩ (fun _ => rfl)
  · rw [bodyEnds_inner coherent threw top inner]
    exact ⟨coherentAfter, ⟨leftover, pending, after⟩, kept.closed⟩

theorem Kept.handleCall {transaction : Transaction} (kept : Kept transaction) {event : Event}
    (enclave : transaction.hostRuns = false)
    (clean : transaction.fires event = true → transaction.abandoned = false) :
    Kept (transaction.handleCall event) := by
  have coherent := kept.toCoherent.handleCall enclave event
  obtain ⟨leftover, pending, split⟩ := kept.split
  unfold Transaction.handleCall at coherent ⊢
  cases state : transaction.callState with
  | ready => exact kept
  | response bytes => exact kept
  | intoEnclave depth hasCallback =>
      rw [state] at coherent
      cases event with
      | onMail encryptedBytes routingHint =>
          exact ⟨coherent, ⟨leftover, _, split.addMailCommand _⟩, kept.closed⟩
      | onUntrustedHost =>
          simp only at coherent ⊢
          split
          · rename_i called
            rw [if_pos called] at coherent
            exact ⟨coherent, ⟨leftover, pending, split.waiting, split.running, split.abandoned,
              split.old, split.numbered⟩, kept.closed⟩
          · exact kept
      | onCallReturn bytes =>
          exact ⟨coherent, ⟨leftover, pending, split.waiting, split.running, split.abandoned,
            split.old, split.numbered⟩, kept.closed⟩
      | onSealedState sealedState =>
          have nothing := split.leftover_nil (clean (by simp [fires, state, enclave]))
          rw [nothing] at split
          have fired := (split.addMailCommand (.storeSealedState sealedState)).fireMailCommands
          exact ⟨coherent, ⟨[], [], fired.waiting, fired.running, fired.abandoned, fired.old,
            fired.numbered⟩, kept.closed⟩
      | callIntoEnclave => exact kept
      | callbackEnds => exact kept
      | bodyEnds => exact kept

/-- The four kinds of steps. -/
theorem step_cases {transaction next : Transaction} {event : Event}
    (stepped : transaction.step event = some next) :
    (∃ hasCallback, event = .callIntoEnclave hasCallback ∧ transaction.hostRuns = true ∧
      next = transaction.callIntoEnclave hasCallback) ∨
    (∃ rest, event = .callbackEnds ∧ transaction.activations = .callback :: rest ∧
      next = { transaction with activations := rest }) ∨
    (∃ threw previous intoEnclave rest, event = .bodyEnds threw ∧
      transaction.activations = .call previous intoEnclave :: rest ∧
      next = transaction.bodyEnds previous intoEnclave rest threw) ∨
    event.isMessage = true ∧ transaction.hostRuns = false ∧
      next = transaction.handleCall event := by
  have message : (if transaction.hostRuns then none else some (transaction.handleCall event)) =
      some next → transaction.hostRuns = false ∧ next = transaction.handleCall event := by
    intro handled
    split at handled
    · cases handled
    · rename_i enclave
      cases handled
      exact ⟨by simpa using enclave, rfl⟩
  cases event with
  | callIntoEnclave hasCallback =>
      simp only [Transaction.step] at stepped
      split at stepped
      · rename_i host
        cases stepped
        exact Or.inl ⟨hasCallback, rfl, host, rfl⟩
      · cases stepped
  | callbackEnds =>
      simp only [Transaction.step] at stepped
      split at stepped
      · rename_i rest top
        cases stepped
        exact Or.inr (Or.inl ⟨rest, rfl, top, rfl⟩)
      · cases stepped
  | bodyEnds threw =>
      simp only [Transaction.step] at stepped
      split at stepped
      · rename_i previous intoEnclave rest top
        cases stepped
        exact Or.inr (Or.inr (Or.inl ⟨threw, previous, intoEnclave, rest, rfl, top, rfl⟩))
      · cases stepped
  | onMail encryptedBytes routingHint => exact Or.inr (Or.inr (Or.inr ⟨rfl, message stepped⟩))
  | onUntrustedHost => exact Or.inr (Or.inr (Or.inr ⟨rfl, message stepped⟩))
  | onCallReturn bytes => exact Or.inr (Or.inr (Or.inr ⟨rfl, message stepped⟩))
  | onSealedState sealedState => exact Or.inr (Or.inr (Or.inr ⟨rfl, message stepped⟩))

theorem Kept.step {transaction next : Transaction} {event : Event} (kept : Kept transaction)
    (clean : transaction.fires event = true → transaction.abandoned = false)
    (stepped : transaction.step event = some next) : Kept next := by
  obtain ⟨leftover, pending, split⟩ := kept.split
  rcases step_cases stepped with ⟨hasCallback, rfl, host, rfl⟩ | ⟨rest, rfl, top, rfl⟩ |
    ⟨threw, previous, intoEnclave, rest, rfl, top, rfl⟩ | ⟨_, enclave, rfl⟩
  · obtain ⟨pushed, coherent⟩ := kept.toCoherent.callIntoEnclave host hasCallback
    refine ⟨coherent, ⟨leftover, pending, ?_⟩, ?_⟩
    · rw [pushed]
      exact ⟨split.waiting, split.running, split.abandoned, split.old, split.numbered⟩
    · rw [pushed]
      exact kept.closed
  · have stacked := kept.stacked
    have expected := kept.toCoherent.host (by simp [hostRuns, top])
    rw [top] at stacked expected
    exact ⟨⟨stacked.1, Or.inl expected⟩, ⟨leftover, pending, split.waiting, split.running,
      split.abandoned, split.old, split.numbered⟩, kept.closed⟩
  · exact kept.bodyEnds top clean
  · exact kept.handleCall enclave clean

/-! ## A broken contract stays broken -/

theorem Broken.addMailCommand {transaction : Transaction} (broken : Broken transaction)
    (command : MailCommand) : Broken (transaction.addMailCommand command) := by
  rcases broken with old | ⟨fired, member, small, foreign⟩
  · exact Or.inl old
  · refine Or.inr ⟨fired, member, Nat.lt_succ_of_lt small, ?_⟩
    change fired ∉ transaction.produced ++ _
    rw [List.mem_append, List.mem_singleton]
    rintro (old | same)
    · exact foreign old
    · rw [same] at small
      exact Nat.lt_irrefl _ small

theorem Broken.fireMailCommands {transaction : Transaction} (broken : Broken transaction) :
    Broken transaction.fireMailCommands := by
  rcases broken with old | ⟨fired, member, facts⟩
  · exact Or.inl old
  · exact Or.inr ⟨fired, List.mem_append_left _ member, facts⟩

theorem Broken.closeRecord {transaction : Transaction} (broken : Broken transaction)
    (threw : Bool) : Broken (transaction.closeRecord threw) := by
  unfold Transaction.closeRecord
  split
  · left
    rcases broken with ⟨record, member, violated⟩ | ⟨fired, member, _, foreign⟩
    · exact ⟨record, List.mem_append_left _ member, violated⟩
    · refine ⟨⟨transaction.produced, transaction.fired, threw⟩, by simp, ?_⟩
      intro transactional
      unfold Record.Transactional at transactional
      cases threw with
      | true =>
          rw [if_pos rfl] at transactional
          exact foreign (transactional.subset member)
      | false =>
          rw [if_neg (by simp)] at transactional
          simp only at transactional
          rw [transactional] at member
          exact foreign member
  · exact broken

theorem Broken.bodyEnds {transaction : Transaction} (broken : Broken transaction)
    (previous intoEnclave : CallState) (rest : List Activation) (threw : Bool) :
    Broken (transaction.bodyEnds previous intoEnclave rest threw) := by
  unfold Transaction.bodyEnds
  apply Broken.closeRecord
  split
  · apply Broken.fireMailCommands
    exact broken
  · exact broken

theorem Broken.handleCall {transaction : Transaction} (broken : Broken transaction)
    (event : Event) : Broken (transaction.handleCall event) := by
  unfold Transaction.handleCall
  cases transaction.callState with
  | ready => exact broken
  | response bytes => exact broken
  | intoEnclave depth hasCallback =>
      cases event with
      | onMail encryptedBytes routingHint => exact broken.addMailCommand _
      | onUntrustedHost =>
          simp only
          split
          · exact broken
          · exact broken
      | onCallReturn bytes => exact broken
      | onSealedState sealedState => exact (broken.addMailCommand _).fireMailCommands
      | callIntoEnclave => exact broken
      | callbackEnds => exact broken
      | bodyEnds => exact broken

theorem Broken.step {transaction next : Transaction} {event : Event}
    (broken : Broken transaction) (stepped : transaction.step event = some next) :
    Broken next := by
  rcases step_cases stepped with ⟨hasCallback, _, _, rfl⟩ | ⟨rest, _, _, rfl⟩ |
    ⟨threw, previous, intoEnclave, rest, _, _, rfl⟩ | ⟨_, _, rfl⟩
  · unfold Transaction.callIntoEnclave
    simp only
    split
    · exact broken
    · exact broken
  · exact broken
  · exact broken.bodyEnds previous intoEnclave rest threw
  · exact broken.handleCall event

/-- Firing on a thread with an abandoned call breaks the contract. -/
theorem Kept.broken {transaction next : Transaction} {event : Event} (kept : Kept transaction)
    (fires : transaction.fires event = true) (dirty : transaction.abandoned = true)
    (stepped : transaction.step event = some next) : Broken next := by
  obtain ⟨leftover, pending, split⟩ := kept.split
  rcases step_cases stepped with ⟨hasCallback, rfl, _, _⟩ | ⟨rest, rfl, _, _⟩ |
    ⟨threw, previous, intoEnclave, rest, rfl, top, rfl⟩ | ⟨isMessage, enclave, rfl⟩
  · cases fires
  · cases fires
  · cases threw with
    | true => cases fires
    | false =>
        cases rest with
        | nil =>
            rw [bodyEnds_returned kept.toCoherent top]
            apply Broken.closeRecord
            have after : Split (transaction.reverted previous intoEnclave []) leftover pending :=
              ⟨split.waiting, split.running, split.abandoned, split.old, split.numbered⟩
            exact after.broken dirty
        | cons activation below => simp [Transaction.fires, top] at fires
  · cases event with
    | onSealedState sealedState =>
        cases state : transaction.callState with
        | ready => simp [Transaction.fires, state] at fires
        | response bytes => simp [Transaction.fires, state] at fires
        | intoEnclave depth hasCallback =>
            simp only [Transaction.handleCall, state]
            exact (split.addMailCommand (.storeSealedState sealedState)).broken dirty
    | callIntoEnclave => cases fires
    | callbackEnds => cases fires
    | bodyEnds => cases isMessage
    | onMail => cases fires
    | onUntrustedHost => cases fires
    | onCallReturn => cases fires

end Transaction

/-! ## Whole runs -/

open Transaction

theorem stepThread_own {transactions next : Thread → Transaction} {thread : Thread}
    {event : Event} (stepped : stepThread transactions (thread, event) = some next) :
    (transactions thread).step event = some (next thread) ∧
      ∀ other, other ≠ thread → next other = transactions other := by
  obtain ⟨after, own, rfl⟩ := Option.map_eq_some_iff.mp stepped
  refine ⟨?_, ?_⟩
  · rw [own, Function.update_self]
  · intro other different
    rw [Function.update_of_ne different]

theorem broken_stepThread {transactions next : Thread → Transaction}
    {input : Thread × Event} (broken : ∃ thread, Broken (transactions thread))
    (stepped : stepThread transactions input = some next) : ∃ thread, Broken (next thread) := by
  obtain ⟨thread, broken⟩ := broken
  obtain ⟨own, others⟩ := stepThread_own stepped
  by_cases same : thread = input.1
  · rw [same] at broken
    exact ⟨input.1, broken.step own⟩
  · refine ⟨thread, ?_⟩
    rw [others thread same]
    exact broken

theorem kept_stepThread {transactions next : Thread → Transaction} {thread : Thread}
    {event : Event} (kept : ∀ other, Kept (transactions other))
    (clean : (transactions thread).fires event = true →
      (transactions thread).abandoned = false)
    (stepped : stepThread transactions (thread, event) = some next) :
    ∀ other, Kept (next other) := by
  obtain ⟨own, others⟩ := stepThread_own stepped
  intro other
  by_cases same : other = thread
  · rw [same]
    exact (kept thread).step clean own
  · rw [others other same]
    exact kept other

/-- Either the books are kept to the end, or the run fires on a thread with an
abandoned call and the contract is broken for good. -/
theorem run_kept_or_broken {inputs : List (Thread × Event)}
    {transactions final : Thread → Transaction} (kept : ∀ thread, Kept (transactions thread))
    (ran : run stepThread transactions inputs = some final) :
    (NeverAfterAbandoned transactions inputs ∧ ∀ thread, Kept (final thread)) ∨
      (¬ NeverAfterAbandoned transactions inputs ∧ ∃ thread, Broken (final thread)) := by
  induction inputs generalizing transactions with
  | nil =>
      cases ran
      exact Or.inl ⟨trivial, kept⟩
  | cons input rest ih =>
      obtain ⟨thread, event⟩ := input
      obtain ⟨next, stepped, ran⟩ := run_cons ran
      by_cases clean : (transactions thread).fires event = true →
          (transactions thread).abandoned = false
      · rcases ih (kept_stepThread kept clean stepped) ran with ⟨never, keptFinal⟩ |
          ⟨sometimes, broken⟩
        · refine Or.inl ⟨⟨clean, ?_⟩, keptFinal⟩
          intro other steppedToo
          rw [stepped] at steppedToo
          cases steppedToo
          exact never
        · exact Or.inr ⟨fun never => sometimes (never.2 next stepped), broken⟩
      · refine Or.inr ⟨fun never => clean never.1, ?_⟩
        rw [Classical.not_imp, Bool.not_eq_false] at clean
        have broken := (kept thread).broken clean.1 clean.2 (stepThread_own stepped).1
        exact run_invariant (fun holds step => broken_stepThread holds step)
          ⟨thread, broken⟩ ran

/-- In a run of any threads, every outermost call fires its own commands only,
in order, and all of them if it completes, exactly when no commands are fired on
a thread after an outermost call on it has thrown with commands unfired. -/
theorem transactional_iff {inputs : List (Thread × Event)} {final : Thread → Transaction}
    (ran : run stepThread (fun _ => Transaction.new) inputs = some final) :
    (∀ thread, (final thread).Transactional) ↔
      NeverAfterAbandoned (fun _ : Thread => Transaction.new) inputs := by
  rcases run_kept_or_broken (fun _ => kept_new) ran with ⟨never, kept⟩ | ⟨sometimes, broken⟩
  · exact ⟨fun _ => never, fun _ thread => (kept thread).transactional⟩
  · refine ⟨fun transactional => ?_, fun never => absurd never sometimes⟩
    obtain ⟨thread, broken⟩ := broken
    exact absurd (transactional thread) broken.not_transactional

/-- A call that posts a mail and completes, and one that emits a sealed state. -/
def completedCalls : List (Unit × Event) :=
  [((), .callIntoEnclave true), ((), .onMail [1] none), ((), .bodyEnds false),
    ((), .callIntoEnclave false), ((), .onMail [2] none), ((), .onSealedState [3]),
    ((), .callbackEnds), ((), .bodyEnds false)]

theorem transactional_completedCalls :
    ∃ final, run stepThread (fun _ : Unit => Transaction.new) completedCalls = some final ∧
      (∀ thread, (final thread).Transactional) := by
  have enabled : (run stepThread (fun _ : Unit => Transaction.new) completedCalls).isSome =
      true := by
    decide
  obtain ⟨final, ran⟩ := Option.isSome_iff_exists.mp enabled
  refine ⟨final, ran, (transactional_iff ran).mpr ?_⟩
  simp [NeverAfterAbandoned, completedCalls, stepThread, Transaction.step, Transaction.new,
    Transaction.hostRuns, Transaction.callIntoEnclave, Transaction.handleCall,
    Transaction.bodyEnds, Transaction.closeRecord, Transaction.fireMailCommands,
    Transaction.addMailCommand, Transaction.revertState, Transaction.fires, CallState.isResponse]

/-- The enclave posts a mail and throws.  The next call on the thread posts
nothing and completes, and hands the mail of the failed call to the host. -/
def abandonedCall : List (Unit × Event) :=
  [((), .callIntoEnclave false), ((), .onMail [1] none), ((), .bodyEnds true),
    ((), .callIntoEnclave false), ((), .bodyEnds false)]

theorem abandonedCall_fires_later :
    ∃ final, run stepThread (fun _ : Unit => Transaction.new) abandonedCall = some final ∧
      (final ()).records =
        [⟨[⟨0, .postMail [1] none⟩], [], true⟩, ⟨[], [⟨0, .postMail [1] none⟩], false⟩] ∧
      ¬ (final ()).Transactional := by
  have records : (run stepThread (fun _ : Unit => Transaction.new) abandonedCall).map
      (fun final => (final ()).records) = some
        [⟨[⟨0, .postMail [1] none⟩], [], true⟩, ⟨[], [⟨0, .postMail [1] none⟩], false⟩] := by
    decide
  obtain ⟨final, ran, recordsEq⟩ := Option.map_eq_some_iff.mp records
  refine ⟨final, ran, recordsEq, ?_⟩
  rintro ⟨closed, _⟩
  rw [recordsEq] at closed
  have last := closed ⟨[], [⟨0, .postMail [1] none⟩], false⟩ (by simp)
  simp [Record.Transactional] at last

end Conclave.Host
