import ConclaveFormal.Calls.CallInterface
import ConclaveFormal.Common.ThrowableSizes
import ConclaveFormal.Lib.ReentrantLock
import ConclaveFormal.Lib.Transition
import Mathlib.Logic.Function.Basic

/-!
# What exceptions tell the host

The enclave's call interface sanitises exceptions once a flag is set, which happens in the
middle of the initialisation of the enclave.  An execution is a run of what the threads of
the host and the enclave do at the interface, in any interleaving and with any nesting.
-/

set_option autoImplicit false

namespace Conclave.Calls

open Conclave.Lib Conclave.Lib.Json Conclave.Common

inductive EnclaveMode where
  | RELEASE
  | DEBUG
  | SIMULATION
  | MOCK
  deriving DecidableEq, Repr

namespace Sanitising

/-- `NativeEnclaveHostInterface` or `SocketEnclaveHostInterface`. -/
inductive Transport where
  | native
  | gramine
  deriving DecidableEq, Repr

/-- The names in a stack trace come out of class files, where they take at most 65535 bytes. -/
structure Platform extends Runtime where
  transport : Transport
  enclaveMode : EnclaveMode
  invocationStackTrace : List StackTraceElement
  startStackTrace : List StackTraceElement
  written : ∃ bytes, ThrowableSerialisation.writeElements invocationStackTrace = .ok bytes ∧
    bytes.length < 2 ^ 30

/-! ## The enclave's interface -/

/-- How far `initialiseEnclave` has got: the enclave class is loaded, its constructor runs, the
environment is created, and the enclave is initialised. -/
inductive Stage where
  | loading
  | constructing
  | environment
  | initialising
  deriving DecidableEq, Repr

/-- What a thread is in the middle of; `starting` is the part of the START_ENCLAVE call that
wraps what it catches. -/
inductive Activity where
  | initialiseEnclave (stage : Stage)
  | handling (callType : EnclaveCallType)
  | starting
  | inHost
  deriving DecidableEq, Repr

abbrev ThreadId : Type := Nat

/-- The last activity of a thread comes first. -/
structure Interface where
  sanitiseExceptions : Bool
  isInitialised : Bool
  lock : ReentrantLock ThreadId
  callHandlers : List EnclaveCallType
  activities : ThreadId → List Activity

def Interface.created : Interface where
  sanitiseExceptions := false
  isInitialised := false
  lock := none
  callHandlers := [.INITIALISE_ENCLAVE]
  activities _ := []

/-- What happens next on a thread.  `throws` has the stack trace of the `catch` block as well. -/
inductive Input where
  | call (callType : EnclaveCallType) (catchStackTrace : List StackTraceElement)
  | advance
  | registerCallHandler (callType : EnclaveCallType)
  | callHost
  | hostReturns
  | returns
  | throws (catchStackTrace : List StackTraceElement) (throwable : Throwable)

section Interface

variable (platform : Platform)

def Interface.setActivities (thread : ThreadId) (activities : List Activity)
    (interface : Interface) : Interface :=
  { interface with activities := Function.update interface.activities thread activities }

/-- `synchronized`, in the native transport. -/
def lockInitialisation (thread : ThreadId) (interface : Interface) : Option Interface :=
  match platform.transport with
  | .gramine => some interface
  | .native =>
      if interface.lock.available thread then
        some { interface with lock := interface.lock.acquire thread }
      else none

def unlockInitialisation (interface : Interface) : Interface :=
  match platform.transport with
  | .gramine => interface
  | .native => { interface with lock := interface.lock.release }

/-- What a call throws before its handler runs. -/
def refused (callType : EnclaveCallType) (interface : Interface) : Option InterfaceException :=
  if callType ∉ interface.callHandlers then
    some (.illegalState "No call handler has been registered.")
  else if platform.transport = .native ∧ callType = .INITIALISE_ENCLAVE ∧
      interface.isInitialised then
    some (.illegalState "Enclave has already been initialised.")
  else none

def startCall (thread : ThreadId) (callType : EnclaveCallType) (interface : Interface) :
    Option Interface :=
  let outer := interface.activities thread
  match refused platform callType interface, callType with
  | some _, .INITIALISE_ENCLAVE => do
      let _ ← lockInitialisation platform thread interface
      return interface
  | some _, _ => some interface
  | none, .INITIALISE_ENCLAVE => do
      let locked ← lockInitialisation platform thread interface
      return locked.setActivities thread (.initialiseEnclave .loading :: outer)
  | none, callType => some (interface.setActivities thread (.handling callType :: outer))

/-- The end of a handler. -/
def finish (thread : ThreadId) (activity : Activity) (outer : List Activity)
    (interface : Interface) : Interface :=
  match activity with
  | .initialiseEnclave _ => unlockInitialisation platform (interface.setActivities thread outer)
  | _ => interface.setActivities thread outer

def step (interface : Interface) : ThreadId × Input → Option Interface
  | (thread, input) =>
      match input, interface.activities thread with
      | .call callType _, [] => startCall platform thread callType interface
      | .call callType _, .inHost :: _ => startCall platform thread callType interface
      | .advance, .initialiseEnclave .loading :: outer =>
          some (interface.setActivities thread (.initialiseEnclave .constructing :: outer))
      | .advance, .initialiseEnclave .constructing :: outer =>
          some (interface.setActivities thread (.initialiseEnclave .environment :: outer))
      | .advance, .initialiseEnclave .environment :: outer =>
          some ({ interface with
              sanitiseExceptions := decide (platform.enclaveMode = EnclaveMode.RELEASE) }
            |>.setActivities thread (.initialiseEnclave .initialising :: outer))
      | .advance, .handling .START_ENCLAVE :: outer =>
          some (interface.setActivities thread (.starting :: outer))
      | .registerCallHandler callType, .initialiseEnclave .initialising :: _ =>
          if callType ∈ interface.callHandlers then none
          else some { interface with callHandlers := callType :: interface.callHandlers }
      | .hostReturns, .inHost :: outer => some (interface.setActivities thread outer)
      | .callHost, activity :: outer =>
          if activity = .inHost then none
          else some (interface.setActivities thread (.inHost :: activity :: outer))
      | .returns, .initialiseEnclave stage :: outer =>
          if stage = .initialising then
            some (finish platform thread (.initialiseEnclave stage) outer
              { interface with isInitialised := true })
          else none
      | .returns, activity :: outer =>
          if activity = .inHost then none
          else some (finish platform thread activity outer interface)
      | .throws _ _, activity :: outer =>
          if activity = .inHost then none
          else some (finish platform thread activity outer interface)
      | _, _ => none

/-! ## Exceptions -/

def InvocationTargetException : JString :=
  jstring "java.lang.reflect.InvocationTargetException"

/-- The exception that leaves the handler.  Reflection wraps what the constructor throws, which
the native transport undoes; the start of the enclave wraps all but its own exceptions. -/
def leaving (activity : Activity) (throwable : Throwable) : Throwable :=
  match activity, platform.transport with
  | .initialiseEnclave .constructing, .gramine =>
      .mk InvocationTargetException none platform.invocationStackTrace (some throwable) []
  | .starting, _ =>
      if throwable.className = EnclaveStartException then throwable
      else
        .mk EnclaveStartException (some (jstring "Unable to start enclave"))
          platform.startStackTrace (some throwable) []
  | _, _ => throwable

/-- The `catch` block of `handleCallECall` or `handleCallMessage`. -/
def sendException (interface : Interface) (catchStackTrace : List StackTraceElement)
    (throwable : Throwable) : Option Bytes :=
  let runtime := { platform.toRuntime with sanitisedStackTrace := catchStackTrace }
  match ThrowableSerialisation.serialise
      (maybeSanitised runtime .enclave interface.sanitiseExceptions throwable) with
  | .ok bytes => some bytes
  | .error _ => none

/-- The bytes of the EXCEPTION message that is sent in a step, if there is one. -/
def exceptionBytes (interface : Interface) : ThreadId × Input → Option Bytes
  | (thread, input) =>
      match input, interface.activities thread with
      | .throws catchStackTrace throwable, activity :: _ =>
          sendException platform interface catchStackTrace
            (leaving platform activity throwable)
      | .call callType catchStackTrace, _ => do
          let exception ← refused platform callType interface
          sendException platform interface catchStackTrace (platform.throwable exception)
      | _, _ => none

/-- The bytes of all EXCEPTION messages of a run. -/
def sent (interface : Interface) : List (ThreadId × Input) → List Bytes
  | [] => []
  | input :: rest =>
      (exceptionBytes platform interface input).toList ++
        match step platform interface input with
        | some next => sent next rest
        | none => []

/-! ## Executions that differ in exceptions -/

/-- Neither class that the host may know about. -/
def Ordinary (throwable : Throwable) : Prop :=
  throwable.className ≠ EnclaveStartException ∧ throwable.className ≠ MailDecryptionException

def Alike (first second : Throwable) : Prop :=
  first = second ∨ (Ordinary first ∧ Ordinary second) ∨
    (first.className = MailDecryptionException ∧ second.className = MailDecryptionException)

def AlikeInput (activities : List Activity) : Input → Input → Prop
  | .throws catchStackTrace first, .throws catchStackTrace' second =>
      catchStackTrace = catchStackTrace' ∧ ∀ activity ∈ activities.head?,
        Alike (leaving platform activity first) (leaving platform activity second)
  | first, second => first = second

/-- The same run, but for the exceptions that the enclave's code throws. -/
def AlikeExecution (interface : Interface) :
    List (ThreadId × Input) → List (ThreadId × Input) → Prop
  | [], [] => True
  | (thread, input) :: rest, (thread', input') :: rest' =>
      thread = thread' ∧ AlikeInput platform (interface.activities thread) input input' ∧
        ∀ next, step platform interface (thread, input) = some next →
          AlikeExecution next rest rest'
  | _, _ => False

/-- An exception that leaves a handler does so when exceptions are sanitised, unless it is an
`EnclaveStartException`. -/
def Guarded (interface : Interface) : ThreadId × Input → Prop
  | (thread, .throws _ throwable) => ∀ activity ∈ (interface.activities thread).head?,
      (leaving platform activity throwable).className = EnclaveStartException ∨
        interface.sanitiseExceptions = true
  | _ => True

/-! ## Alike executions take the same steps -/

variable {platform}

theorem Alike.refl (throwable : Throwable) : Alike throwable throwable :=
  Or.inl rfl

theorem AlikeInput.refl (activities : List Activity) (input : Input) :
    AlikeInput platform activities input input := by
  cases input with
  | throws catchStackTrace throwable => exact ⟨rfl, fun _ _ => Alike.refl _⟩
  | _ => rfl

theorem AlikeExecution.refl (interface : Interface) (inputs : List (ThreadId × Input)) :
    AlikeExecution platform interface inputs inputs := by
  induction inputs generalizing interface with
  | nil => trivial
  | cons input rest ih => exact ⟨rfl, AlikeInput.refl _ _, fun next _ => ih next⟩

/-- What is thrown does not matter for what happens next. -/
theorem step_throws (interface : Interface) (thread : ThreadId)
    (catchStackTrace : List StackTraceElement) (first second : Throwable) :
    step platform interface (thread, .throws catchStackTrace first) =
      step platform interface (thread, .throws catchStackTrace second) := by
  cases top : interface.activities thread with
  | nil => simp only [step, top]
  | cons activity outer => simp only [step, top]

theorem AlikeInput.step_eq {interface : Interface} {thread : ThreadId} {input other : Input}
    (alike : AlikeInput platform (interface.activities thread) input other) :
    step platform interface (thread, input) = step platform interface (thread, other) := by
  cases input with
  | throws catchStackTrace first =>
      cases other with
      | throws catchStackTrace' second =>
          obtain ⟨rfl, -⟩ := alike
          exact step_throws interface thread catchStackTrace first second
      | _ => cases alike
  | _ =>
      cases alike
      rfl

/-! ## What is sanitised is the same -/

theorem mailDecryption_ne_enclaveStart : MailDecryptionException ≠ EnclaveStartException := by
  decide

theorem sanitiseThrowable_alike {runtime : Runtime} {first second : Throwable}
    (alike : Alike first second) :
    sanitiseThrowable runtime first = sanitiseThrowable runtime second := by
  rcases alike with rfl | ⟨⟨notStart, notMail⟩, notStart', notMail'⟩ | ⟨mail, mail'⟩
  · rfl
  · simp only [sanitiseThrowable, if_neg notStart, if_neg notMail, if_neg notStart',
      if_neg notMail']
  · simp only [sanitiseThrowable, mail, mail', if_neg mailDecryption_ne_enclaveStart, if_true]

theorem Alike.eq_of_start {first second : Throwable} (alike : Alike first second)
    (start : first.className = EnclaveStartException) : first = second := by
  rcases alike with same | ⟨⟨notStart, -⟩, -⟩ | ⟨mail, -⟩
  · exact same
  · exact absurd start notStart
  · exact absurd (mail.symm.trans start) mailDecryption_ne_enclaveStart

theorem sendException_alike {interface : Interface} {first second : Throwable}
    (alike : Alike first second)
    (guarded : first.className = EnclaveStartException ∨ interface.sanitiseExceptions = true)
    (catchStackTrace : List StackTraceElement) :
    sendException platform interface catchStackTrace first =
      sendException platform interface catchStackTrace second := by
  rcases guarded with start | sanitising
  · rw [alike.eq_of_start start]
  · simp only [sendException, maybeSanitised, sanitising, sanitiseThrowable_alike alike]

theorem exceptionBytes_alike {interface : Interface} {thread : ThreadId} {input other : Input}
    (alike : AlikeInput platform (interface.activities thread) input other)
    (guarded : Guarded platform interface (thread, input)) :
    exceptionBytes platform interface (thread, input) =
      exceptionBytes platform interface (thread, other) := by
  cases input with
  | throws catchStackTrace first =>
      cases other with
      | throws catchStackTrace' second =>
          obtain ⟨rfl, alike⟩ := alike
          cases top : interface.activities thread with
          | nil => simp only [exceptionBytes, top]
          | cons activity outer =>
              have isTop : activity ∈ (interface.activities thread).head? := by
                rw [top]
                rfl
              simp only [exceptionBytes, top]
              exact sendException_alike (alike activity isTop) (guarded activity isTop)
                catchStackTrace
      | _ => cases alike
  | _ =>
      cases alike
      rfl

theorem sent_alike {interface : Interface} {inputs others : List (ThreadId × Input)}
    (guarded : Meets (step platform) (Guarded platform) interface inputs)
    (alike : AlikeExecution platform interface inputs others) :
    sent platform interface others = sent platform interface inputs := by
  induction inputs generalizing interface others with
  | nil =>
      cases others with
      | nil => rfl
      | cons other rest => cases alike
  | cons input rest ih =>
      cases others with
      | nil => cases alike
      | cons other rest' =>
          obtain ⟨thread, input⟩ := input
          obtain ⟨thread', other⟩ := other
          obtain ⟨rfl, alikeInput, later⟩ := alike
          rw [sent, sent, ← exceptionBytes_alike alikeInput guarded.1, ← alikeInput.step_eq]
          cases stepped : step platform interface (thread, input) with
          | none => rfl
          | some next => simp only [ih (guarded.2 next stepped) (later next stepped)]

/-! ## What is not sanitised is told -/

/-- Exceptions of one class that differ in their message. -/
def telling (className : JString) (unit : UInt16) : Throwable :=
  .mk className (some [unit]) [] none []

def RuntimeException : JString := jstring "java.lang.RuntimeException"

def unsanitised (throwable : Throwable) : Option Bytes :=
  match ThrowableSerialisation.serialise throwable with
  | .ok bytes => some bytes
  | .error _ => none

theorem sendException_unsanitised {interface : Interface}
    (unset : interface.sanitiseExceptions = false) (catchStackTrace : List StackTraceElement)
    (throwable : Throwable) :
    sendException platform interface catchStackTrace throwable = unsanitised throwable := by
  simp only [sendException, maybeSanitised, unset, unsanitised]

theorem unsanitised_of_chain {throwable : Throwable} {chain : Bytes}
    (written : ThrowableSerialisation.writeChain throwable = .ok chain)
    (small : chain.length < 2 ^ 31 - 4) :
    unsanitised throwable =
      some (writeInt (ThrowableSerialisation.chainLength throwable) ++ chain) := by
  rw [unsanitised, ThrowableSerialisation.serialise, written]
  simp only [bind, Except.bind]
  rw [if_pos]
  simp only [List.length_append, writeInt, bigEndian_length]
  omega

/-- The message stands behind the name of the class. -/
theorem writeChain_telling {className : JString} {unit : UInt16} {name message : Bytes}
    (named : ThrowableSerialisation.writeString className = .ok name)
    (told : ThrowableSerialisation.writeNullableString (some [unit]) = .ok message) :
    ThrowableSerialisation.writeChain (telling className unit) =
      .ok (name ++ message ++ (writeInt 0 ++ writeInt 0)) := by
  simp only [telling, ThrowableSerialisation.writeChain, ThrowableSerialisation.writeCause,
    ThrowableSerialisation.writeElements, ThrowableSerialisation.writeSuppressed, named, told,
    bind, Except.bind, pure, Except.pure, List.length_nil, List.nil_append, List.append_nil,
    List.append_assoc]

theorem writeChain_tells {className : JString} {name : Bytes}
    (named : ThrowableSerialisation.writeString className = .ok name) :
    ∃ first second, ThrowableSerialisation.writeChain (telling className 97) = .ok first ∧
      ThrowableSerialisation.writeChain (telling className 98) = .ok second ∧
      first.length < 2 ^ 17 ∧ first.length = second.length ∧ first ≠ second := by
  have short := ThrowableSerialisation.writeString_length_le named
  have first : ThrowableSerialisation.writeNullableString (some [97]) = .ok [0, 0, 1, 97] := rfl
  have second : ThrowableSerialisation.writeNullableString (some [98]) = .ok [0, 0, 1, 98] := rfl
  refine ⟨_, _, writeChain_telling named first, writeChain_telling named second, ?_, ?_, ?_⟩
  · simp only [List.length_append, writeInt, bigEndian_length, List.length_cons, List.length_nil]
    omega
  · simp only [List.length_append, List.length_cons]
  · intro same
    have messages := List.append_cancel_left (List.append_cancel_right same)
    cases messages

theorem telling_tells {className : JString} {name : Bytes}
    (named : ThrowableSerialisation.writeString className = .ok name) :
    unsanitised (telling className 97) ≠ unsanitised (telling className 98) := by
  obtain ⟨first, second, writes, writes', size, size', different⟩ := writeChain_tells named
  rw [unsanitised_of_chain writes (by omega), unsanitised_of_chain writes' (by omega)]
  intro same
  exact different (List.append_cancel_left (Option.some.inj same))

theorem telling_runtime :
    unsanitised (telling RuntimeException 97) ≠ unsanitised (telling RuntimeException 98) :=
  telling_tells rfl

theorem telling_mail :
    unsanitised (telling MailDecryptionException 97) ≠
      unsanitised (telling MailDecryptionException 98) :=
  telling_tells rfl

def wrapping (invocationStackTrace : List StackTraceElement) (cause : Throwable) : Throwable :=
  .mk InvocationTargetException none invocationStackTrace (some cause) []

theorem unsanitised_wrapping {cause : Throwable} {chain elements : Bytes}
    {invocationStackTrace : List StackTraceElement}
    (written : ThrowableSerialisation.writeElements invocationStackTrace = .ok elements)
    (causes : ThrowableSerialisation.writeChain cause = .ok chain)
    (small : chain.length + elements.length < 2 ^ 31 - 2 ^ 17) :
    ∃ rest, unsanitised (wrapping invocationStackTrace cause) =
      some (writeInt (ThrowableSerialisation.chainLength cause + 1) ++ (chain ++ rest)) := by
  obtain ⟨className, named⟩ : ∃ className,
      ThrowableSerialisation.writeString InvocationTargetException = .ok className := ⟨_, rfl⟩
  have short := ThrowableSerialisation.writeString_length_le named
  have chained : ThrowableSerialisation.writeChain (wrapping invocationStackTrace cause) =
      .ok (chain ++ className ++ [1] ++ writeInt invocationStackTrace.length ++ elements ++
        writeInt 0 ++ []) := by
    simp only [wrapping, ThrowableSerialisation.writeChain, ThrowableSerialisation.writeCause,
      ThrowableSerialisation.writeNullableString, ThrowableSerialisation.writeSuppressed,
      causes, named, written, bind, Except.bind, pure, Except.pure, List.length_nil]
  refine ⟨className ++ [1] ++ writeInt invocationStackTrace.length ++ elements ++ writeInt 0, ?_⟩
  rw [unsanitised_of_chain chained]
  · simp only [wrapping, ThrowableSerialisation.chainLength, List.append_assoc, List.append_nil]
  · simp only [List.length_append, writeInt, bigEndian_length, List.length_cons, List.length_nil]
    omega

theorem wrapping_tells :
    unsanitised (wrapping platform.invocationStackTrace (telling RuntimeException 97)) ≠
      unsanitised (wrapping platform.invocationStackTrace (telling RuntimeException 98)) := by
  obtain ⟨elements, written, small⟩ := platform.written
  obtain ⟨name, named⟩ : ∃ name,
      ThrowableSerialisation.writeString RuntimeException = .ok name := ⟨_, rfl⟩
  obtain ⟨first, second, writes, writes', size, size', different⟩ := writeChain_tells named
  obtain ⟨rest, told⟩ := unsanitised_wrapping written writes (by omega)
  obtain ⟨rest', told'⟩ := unsanitised_wrapping written writes' (by omega)
  rw [told, told']
  intro same
  have chains := List.append_cancel_left (Option.some.inj same)
  exact different (List.append_inj_left chains size')

theorem ne_or_ne {α : Type} {first second : α} (different : first ≠ second) (value : α) :
    first ≠ value ∨ second ≠ value := by
  by_cases same : first = value
  · right
    rw [← same]
    exact different.symm
  · exact Or.inl same

theorem ordinary_runtime (unit : UInt16) : Ordinary (telling RuntimeException unit) := by
  have ordinary : RuntimeException ≠ EnclaveStartException ∧
      RuntimeException ≠ MailDecryptionException := by decide
  exact ordinary

theorem ordinary_wrapping (invocationStackTrace : List StackTraceElement) (cause : Throwable) :
    Ordinary (wrapping invocationStackTrace cause) := by
  have ordinary : InvocationTargetException ≠ EnclaveStartException ∧
      InvocationTargetException ≠ MailDecryptionException := by decide
  exact ordinary

/-- An exception that leaves its handler as it was thrown. -/
theorem exists_telling_same {throwable : Throwable}
    (notStart : throwable.className ≠ EnclaveStartException) :
    ∃ other, Alike throwable other ∧ unsanitised other ≠ unsanitised throwable := by
  by_cases mail : throwable.className = MailDecryptionException
  · rcases ne_or_ne telling_mail (unsanitised throwable) with different | different
    · exact ⟨_, Or.inr (Or.inr ⟨mail, rfl⟩), different⟩
    · exact ⟨_, Or.inr (Or.inr ⟨mail, rfl⟩), different⟩
  · rcases ne_or_ne telling_runtime (unsanitised throwable) with different | different
    · exact ⟨_, Or.inr (Or.inl ⟨⟨notStart, mail⟩, ordinary_runtime _⟩), different⟩
    · exact ⟨_, Or.inr (Or.inl ⟨⟨notStart, mail⟩, ordinary_runtime _⟩), different⟩

/-- There is an exception that the enclave's code could have thrown instead, and the host could
tell. -/
theorem exists_telling {activity : Activity} {throwable : Throwable}
    (notStart : (leaving platform activity throwable).className ≠ EnclaveStartException) :
    ∃ other, Alike (leaving platform activity throwable) (leaving platform activity other) ∧
      unsanitised (leaving platform activity other) ≠
        unsanitised (leaving platform activity throwable) := by
  have wrapped (wraps : ∀ thrown, leaving platform activity thrown =
      wrapping platform.invocationStackTrace thrown) :
      ∃ other, Alike (leaving platform activity throwable) (leaving platform activity other) ∧
        unsanitised (leaving platform activity other) ≠
          unsanitised (leaving platform activity throwable) := by
    have alike (other : Throwable) :
        Alike (leaving platform activity throwable) (leaving platform activity other) := by
      rw [wraps, wraps]
      exact Or.inr (Or.inl ⟨ordinary_wrapping _ _, ordinary_wrapping _ _⟩)
    rcases ne_or_ne (wrapping_tells)
      (unsanitised (leaving platform activity throwable)) with different | different
    · exact ⟨_, alike _, by rw [wraps (telling RuntimeException 97)]; exact different⟩
    · exact ⟨_, alike _, by rw [wraps (telling RuntimeException 98)]; exact different⟩
  have plain (same : ∀ thrown, leaving platform activity thrown = thrown) :
      ∃ other, Alike (leaving platform activity throwable) (leaving platform activity other) ∧
        unsanitised (leaving platform activity other) ≠
          unsanitised (leaving platform activity throwable) := by
    simp only [same] at notStart ⊢
    exact exists_telling_same notStart
  cases activity with
  | starting =>
      refine absurd ?_ notStart
      rw [leaving]
      split
      · assumption
      · rfl
  | handling callType => exact plain fun _ => rfl
  | inHost => exact plain fun _ => rfl
  | initialiseEnclave stage =>
      cases stage with
      | loading => exact plain fun _ => rfl
      | environment => exact plain fun _ => rfl
      | initialising => exact plain fun _ => rfl
      | constructing =>
          cases transport : platform.transport with
          | native =>
              refine plain fun thrown => ?_
              simp only [leaving, transport]
          | gramine =>
              refine wrapped fun thrown => ?_
              simp only [leaving, transport, wrapping]

theorem guarded_of_same {interface : Interface} {input : ThreadId × Input}
    {rest : List (ThreadId × Input)}
    (same : ∀ others, AlikeExecution platform interface (input :: rest) others →
      sent platform interface others = sent platform interface (input :: rest)) :
    Guarded platform interface input := by
  obtain ⟨thread, input⟩ := input
  cases input with
  | throws catchStackTrace throwable =>
      intro activity isTop
      by_contra unguarded
      rw [not_or] at unguarded
      obtain ⟨notStart, unset⟩ := unguarded
      replace unset : interface.sanitiseExceptions = false := by simpa using unset
      obtain ⟨other, alike, different⟩ := exists_telling notStart
      obtain ⟨outer, top⟩ : ∃ outer, interface.activities thread = activity :: outer :=
        List.head?_eq_some_iff.mp isTop
      have alikeExecution : AlikeExecution platform interface
          ((thread, .throws catchStackTrace throwable) :: rest)
          ((thread, .throws catchStackTrace other) :: rest) := by
        refine ⟨rfl, ⟨rfl, fun activity' isTop' => ?_⟩, fun next _ => AlikeExecution.refl next rest⟩
        rw [Option.mem_unique isTop' isTop]
        exact alike
      have equal := same _ alikeExecution
      rw [sent, sent, step_throws interface thread catchStackTrace other throwable] at equal
      have bytes := List.append_cancel_right equal
      simp only [exceptionBytes, top, sendException_unsanitised unset] at bytes
      exact different (by simpa using congrArg List.head? bytes)
  | _ => trivial

theorem meets_of_same {interface final : Interface} {inputs : List (ThreadId × Input)}
    (ran : run (step platform) interface inputs = some final)
    (same : ∀ others, AlikeExecution platform interface inputs others →
      sent platform interface others = sent platform interface inputs) :
    Meets (step platform) (Guarded platform) interface inputs := by
  induction inputs generalizing interface with
  | nil => trivial
  | cons input rest ih =>
      obtain ⟨next, stepped, ran⟩ := run_cons ran
      refine Meets.cons (guarded_of_same same) stepped (ih ran fun others alike => ?_)
      obtain ⟨thread, input⟩ := input
      have equal := same ((thread, input) :: others)
        ⟨rfl, AlikeInput.refl _ _, fun other otherStep => by
          rw [stepped] at otherStep
          cases otherStep
          exact alike⟩
      rw [sent, sent, stepped] at equal
      exact List.append_cancel_left equal

/-! ## Once the flag is set -/

@[simp] theorem setActivities_sanitiseExceptions (thread : ThreadId) (activities : List Activity)
    (interface : Interface) :
    (interface.setActivities thread activities).sanitiseExceptions =
      interface.sanitiseExceptions := rfl

theorem lockInitialisation_sanitiseExceptions {thread : ThreadId} {interface locked : Interface}
    (acquired : lockInitialisation platform thread interface = some locked) :
    locked.sanitiseExceptions = interface.sanitiseExceptions := by
  rw [lockInitialisation] at acquired
  split at acquired
  · cases acquired
    rfl
  · split at acquired
    · cases acquired
      rfl
    · cases acquired

@[simp] theorem finish_sanitiseExceptions (thread : ThreadId) (activity : Activity)
    (outer : List Activity) (interface : Interface) :
    (finish platform thread activity outer interface).sanitiseExceptions =
      interface.sanitiseExceptions := by
  cases activity with
  | initialiseEnclave stage =>
      rw [finish, unlockInitialisation]
      split <;> rfl
  | _ => rfl

theorem startCall_sanitiseExceptions {thread : ThreadId} {callType : EnclaveCallType}
    {interface next : Interface}
    (started : startCall platform thread callType interface = some next) :
    next.sanitiseExceptions = interface.sanitiseExceptions := by
  simp only [startCall] at started
  split at started
  · obtain ⟨locked, -, same⟩ := Option.bind_eq_some_iff.mp started
    cases same
    rfl
  · cases started
    rfl
  · obtain ⟨locked, acquired, same⟩ := Option.bind_eq_some_iff.mp started
    have kept := lockInitialisation_sanitiseExceptions acquired
    cases same
    exact kept
  · cases started
    rfl

theorem step_sanitising (release : platform.enclaveMode = .RELEASE) {interface next : Interface}
    {input : ThreadId × Input} (set : interface.sanitiseExceptions = true)
    (stepped : step platform interface input = some next) : next.sanitiseExceptions = true := by
  obtain ⟨thread, input⟩ := input
  simp only [step] at stepped
  split at stepped
  · exact (startCall_sanitiseExceptions stepped).trans set
  · exact (startCall_sanitiseExceptions stepped).trans set
  · cases stepped
    exact set
  · cases stepped
    exact set
  · cases stepped
    exact decide_eq_true release
  · cases stepped
    exact set
  · split at stepped
    · cases stepped
    · cases stepped
      exact set
  · cases stepped
    exact set
  · split at stepped
    · cases stepped
    · cases stepped
      exact set
  · split at stepped
    · cases stepped
      rw [finish_sanitiseExceptions]
      exact set
    · cases stepped
  · split at stepped
    · cases stepped
    · cases stepped
      rw [finish_sanitiseExceptions]
      exact set
  · split at stepped
    · cases stepped
    · cases stepped
      rw [finish_sanitiseExceptions]
      exact set
  · cases stepped

/-- In release mode nothing is told any more once an initialisation has got to the flag. -/
theorem guarded_of_sanitising (release : platform.enclaveMode = .RELEASE) {interface : Interface}
    (set : interface.sanitiseExceptions = true) (inputs : List (ThreadId × Input)) :
    Meets (step platform) (Guarded platform) interface inputs := by
  induction inputs generalizing interface with
  | nil => trivial
  | cons input rest ih =>
      obtain ⟨thread, input⟩ := input
      refine ⟨?_, fun next stepped => ih (step_sanitising release set stepped)⟩
      cases input with
      | throws catchStackTrace throwable => exact fun _ _ => Or.inr set
      | _ => trivial

/-- All executions that differ from a run in the exceptions of the enclave's code only send the
same EXCEPTION messages to the host, exactly if every exception that leaves a handler in this run
does so when exceptions are sanitised, or is an `EnclaveStartException`. -/
theorem exceptions_alike_iff {inputs : List (ThreadId × Input)} {final : Interface}
    (ran : run (step platform) Interface.created inputs = some final) :
    (∀ others, AlikeExecution platform Interface.created inputs others →
      sent platform Interface.created others = sent platform Interface.created inputs) ↔
      Meets (step platform) (Guarded platform) Interface.created inputs :=
  ⟨meets_of_same ran, fun guarded _ alike => sent_alike guarded alike⟩

end Interface

/-! ## A constructor that throws -/

def releasePlatform (transport : Transport) : Platform where
  toRuntime := exampleRuntime
  transport := transport
  enclaveMode := .RELEASE
  invocationStackTrace := []
  startStackTrace := []
  written := ⟨[], rfl, by decide⟩

/-- The enclave is initialised, and throws an exception in its code. -/
def failingInitialisation (unit : UInt16) : List (ThreadId × Input) :=
  [(0, .call .INITIALISE_ENCLAVE []), (0, .advance), (0, .advance), (0, .advance),
    (0, .throws [] (telling RuntimeException unit))]

theorem exceptions_alike_iff_failingInitialisation :
    (∀ others,
      AlikeExecution (releasePlatform .native) Interface.created (failingInitialisation 97)
        others →
      sent (releasePlatform .native) Interface.created others =
        sent (releasePlatform .native) Interface.created (failingInitialisation 97)) ↔
      Meets (step (releasePlatform .native)) (Guarded (releasePlatform .native))
        Interface.created (failingInitialisation 97) :=
  exceptions_alike_iff rfl

/-- The constructor of the enclave throws. -/
def failingConstructor (unit : UInt16) : List (ThreadId × Input) :=
  [(0, .call .INITIALISE_ENCLAVE []), (0, .advance),
    (0, .throws [] (telling RuntimeException unit))]

theorem failingConstructor_tells :
    AlikeExecution (releasePlatform .native) Interface.created (failingConstructor 97)
        (failingConstructor 98) ∧
      sent (releasePlatform .native) Interface.created (failingConstructor 98) ≠
        sent (releasePlatform .native) Interface.created (failingConstructor 97) := by
  constructor
  · refine ⟨rfl, rfl, fun next stepped => ?_⟩
    cases stepped
    refine ⟨rfl, rfl, fun next stepped => ?_⟩
    cases stepped
    refine ⟨rfl, ⟨rfl, fun activity isTop => ?_⟩, fun _ _ => trivial⟩
    cases isTop
    exact Or.inr (Or.inl ⟨ordinary_runtime 97, ordinary_runtime 98⟩)
  · decide +kernel

end Sanitising

end Conclave.Calls
