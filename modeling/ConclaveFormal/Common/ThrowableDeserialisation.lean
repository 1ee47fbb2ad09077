import ConclaveFormal.Common.ThrowableSerialisation
import ConclaveFormal.Lib.Fallible

/-!
# Exceptions from bytes

The cause chain is read with the deepest cause first, so that each exception is made with its cause
at hand.  An exception whose class cannot be made by reflection becomes a `RuntimeException`.
-/

set_option autoImplicit false

namespace Conclave.Common

open Conclave.Lib Conclave.Lib.Json

/-- What holds of the causes and of the suppressed exceptions of an exception holds of it. -/
theorem Throwable.induction {P : Throwable → Prop} {Q : List Throwable → Prop}
    (root : ∀ className message stackTrace suppressed, Q suppressed →
      P (.mk className message stackTrace none suppressed))
    (caused : ∀ className message stackTrace cause suppressed, P cause → Q suppressed →
      P (.mk className message stackTrace (some cause) suppressed))
    (nil : Q []) (cons : ∀ first rest, P first → Q rest → Q (first :: rest))
    (throwable : Throwable) : P throwable := by
  refine @Throwable.rec P (fun cause => ∀ throwable ∈ cause, P throwable) Q ?_ ?_ ?_ nil cons
    throwable
  · intro className message stackTrace cause suppressed ofCause ofSuppressed
    cases cause with
    | none => exact root className message stackTrace suppressed ofSuppressed
    | some cause =>
        exact caused className message stackTrace cause suppressed (ofCause cause rfl) ofSuppressed
  · intro throwable member
    cases member
  · intro first ofFirst throwable member
    cases member
    exact ofFirst

namespace ThrowableSerialisation

open Restore

/-! ## Reading -/

/-- An exception that has just been made: its message and cause, the stack trace and the suppressed
exceptions it comes with, and whether either can be set. -/
structure Made where
  message : Option JString
  cause : Option Throwable
  stackTrace : List StackTraceElement
  suppressed : List Throwable
  writableStackTrace : Bool
  enableSuppression : Bool

namespace Made

/-- Without a writable stack trace nothing happens. -/
def setStackTrace (made : Made) (stackTrace : List StackTraceElement) : Made :=
  if made.writableStackTrace then { made with stackTrace } else made

def addSuppressed (made : Made) (throwable : Throwable) : Made :=
  if made.enableSuppression then { made with suppressed := made.suppressed ++ [throwable] }
  else made

end Made

/-- `create`, which gives an exception of the class, or null, for the message and the cause. -/
abbrev Reflection : Type := JString → Option JString → Option Throwable → Option Made

def runtimeException : JString := jstring "java.lang.RuntimeException"

/-- `"$exceptionClassName: $message"` -/
def folded (className : JString) (message : Option JString) : JString :=
  className ++ jstring ": " ++ message.getD (jstring "null")

/-- `RuntimeException("$exceptionClassName: $message", cause)`; the stack trace of this call is
replaced at once. -/
def newRuntimeException (className : JString) (message : Option JString)
    (cause : Option Throwable) : Made where
  message := some (folded className message)
  cause := cause
  stackTrace := []
  suppressed := []
  writableStackTrace := true
  enableSuppression := true

/-- The exception that is made, with the stack trace and the suppressed exceptions set on it. -/
def newThrowable (create : Reflection) (className : JString) (message : Option JString)
    (stackTrace : List StackTraceElement) (cause : Option Throwable)
    (suppressed : List Throwable) : Throwable :=
  let (newClassName, made) := match create className message cause with
    | some made => (className, made)
    | none => (runtimeException, newRuntimeException className message cause)
  let made := suppressed.foldl Made.addSuppressed (made.setStackTrace stackTrace)
  .mk newClassName made.message made.stackTrace made.cause made.suppressed

/-- What reflection is assumed to do. -/
structure Reflection.AsGiven (create : Reflection) : Prop where
  message : ∀ {className message cause made},
    create className message cause = some made → made.message = message
  cause : ∀ {className message cause made},
    create className message cause = some made → made.cause = cause
  suppression : ∀ {className message cause made},
    create className message cause = some made → made.enableSuppression = true

/-- No constructor that is called turns the stack trace off or adds suppressed exceptions itself. -/
structure Reflection.Plain (create : Reflection) : Prop where
  writable : ∀ {className message cause made},
    create className message cause = some made → made.writableStackTrace = true
  suppressed : ∀ {className message cause made},
    create className message cause = some made → made.suppressed = []

def readString : Restore Unit JString := ofData readUTF

def readElement : Restore Unit StackTraceElement := do
  let className ← readString
  let methodName ← readString
  let fileName ← nullableRead readString
  let lineNumber ← readInt
  return ⟨className, methodName, fileName, BitVec.ofInt 32 lineNumber⟩

def requireNotNull : Option Throwable → Restore Unit Throwable
  | none => Attempt.throw .illegalArgument
  | some throwable => pure throwable

section Read

variable (create : Reflection)

/-- `deserialise(dis, cause)`.  A count of suppressed exceptions that is negative is like none. -/
def readThrowable (readSuppressed : Restore Unit Throwable) (cause : Option Throwable) :
    Restore Unit Throwable := do
  let className ← readString
  let message ← nullableRead readString
  let stackTrace ← readList readElement
  let count ← readInt
  let suppressed ← readTimes count.toNat readSuppressed
  return newThrowable create className message stackTrace cause suppressed

/-- The cause after as many rounds of the loop. -/
def readCauses (readSuppressed : Restore Unit Throwable) : Nat → Restore Unit (Option Throwable)
  | 0 => pure none
  | count + 1 => do
      let cause ← readCauses readSuppressed count
      let throwable ← readThrowable create readSuppressed cause
      return some throwable

/-- `deserialise(dis)`, which is entered again for each suppressed exception; the number bounds how
deep they can be nested. -/
def readChain : Nat → Restore Unit Throwable
  | 0 => Attempt.throw .illegalState
  | depth + 1 => do
      let count ← readInt
      let cause ← readCauses create (readChain depth) count.toNat
      requireNotNull cause

/-- Each chain takes four bytes, so they are not nested deeper than there are bytes. -/
def deserialise (bytes : Bytes) : Except StreamError Throwable × Bytes :=
  let (outcome, _, rest) := readChain create (bytes.length + 1) ((), bytes)
  (outcome, rest)

end Read

/-! ## What is kept -/

/-- The class and the message, unless they are in the message of a `RuntimeException`. -/
def IdentityKept (className : JString) (message : Option JString) (newClassName : JString)
    (newMessage : Option JString) : Prop :=
  newClassName = className ∧ newMessage = message ∨
    newClassName = runtimeException ∧ newMessage = some (folded className message)

mutual

/-- The stack traces, the causes and the suppressed exceptions are alike, and so are those of the
causes and of the suppressed exceptions. -/
inductive Kept : Throwable → Throwable → Prop where
  | mk {className newClassName : JString} {message newMessage : Option JString}
      {stackTrace : List StackTraceElement} {cause newCause : Option Throwable}
      {suppressed newSuppressed : List Throwable}
      (identity : IdentityKept className message newClassName newMessage)
      (causes : CauseKept cause newCause) (suppression : SuppressedKept suppressed newSuppressed) :
      Kept (.mk className message stackTrace cause suppressed)
        (.mk newClassName newMessage stackTrace newCause newSuppressed)

inductive CauseKept : Option Throwable → Option Throwable → Prop where
  | none : CauseKept none none
  | some {cause newCause : Throwable} (kept : Kept cause newCause) :
      CauseKept (some cause) (some newCause)

inductive SuppressedKept : List Throwable → List Throwable → Prop where
  | nil : SuppressedKept [] []
  | cons {first newFirst : Throwable} {rest newRest : List Throwable} (kept : Kept first newFirst)
      (later : SuppressedKept rest newRest) :
      SuppressedKept (first :: rest) (newFirst :: newRest)

end

/-! ## What is read of what has been written -/

theorem restores_readString {text : JString} {bytes : Bytes}
    (written : writeString text = .ok bytes) : Restores readString bytes text id := by
  apply Restores.ofData
  intro rest
  apply readUTF_writeUTF
  rw [writeString] at written
  cases encoded : writeUTF text with
  | error e =>
      rw [encoded] at written
      cases written
  | ok other =>
      rw [encoded] at written
      cases written
      rfl

theorem restores_readNullableString {text : Option JString} {bytes : Bytes}
    (written : writeNullableString text = .ok bytes) :
    Restores (nullableRead readString) bytes text id := by
  cases text with
  | none =>
      cases written
      have taken : ∀ content ∈ (none : Option JString), Restores readString [] content id := by simp
      exact Restores.nullableRead none taken
  | some text =>
      obtain ⟨encoded, writtenText, rfl⟩ := map_eq_ok written
      have taken : ∀ content ∈ some text, Restores readString encoded content id := by
        intro content same
        cases same
        exact restores_readString writtenText
      exact Restores.nullableRead (some text) taken

theorem restores_readElement {element : StackTraceElement} {bytes : Bytes}
    (written : writeElement element = .ok bytes) : Restores readElement bytes element id := by
  rw [writeElement] at written
  obtain ⟨className, first, written⟩ := bind_eq_ok written
  obtain ⟨methodName, second, written⟩ := bind_eq_ok written
  obtain ⟨fileName, third, written⟩ := bind_eq_ok written
  cases written
  have lineNumber : BitVec.ofInt 32 (wrap32 element.lineNumber.toNat) = element.lineNumber := by
    have signed : wrap32 element.lineNumber.toNat = element.lineNumber.toInt :=
      (BitVec.toInt_eq_toNat_bmod element.lineNumber).symm
    rw [signed, BitVec.ofInt_toInt]
  rw [List.append_assoc, List.append_assoc, readElement]
  refine (restores_readString first).bind ?_
  refine (restores_readString second).bind ?_
  refine (restores_readNullableString third).bind ?_
  have taken : Restores (readInt : Restore Unit Int) (writeInt element.lineNumber.toNat)
      (wrap32 element.lineNumber.toNat) id := Restores.readInt_signed element.lineNumber.isLt
  have last := taken.bind_pure fun lineNumber => StackTraceElement.mk element.className
    element.methodName element.fileName (BitVec.ofInt 32 lineNumber)
  rw [lineNumber] at last
  exact last

theorem restores_readElements {elements : List StackTraceElement} {bytes : Bytes}
    (written : writeElements elements = .ok bytes) :
    Restores (readTimes elements.length readElement) bytes elements id := by
  induction elements generalizing bytes with
  | nil =>
      cases written
      exact Restores.pure []
  | cons element elements ih =>
      rw [writeElements] at written
      obtain ⟨first, writtenFirst, written⟩ := bind_eq_ok written
      obtain ⟨later, writtenLater, written⟩ := bind_eq_ok written
      cases written
      exact (restores_readElement writtenFirst).readTimes_cons (ih writtenLater)

section Rebuilt

variable (create : Reflection)

mutual

/-- The exception that is made of one that has been written. -/
def rebuilt : Throwable → Throwable
  | .mk className message stackTrace cause suppressed =>
      newThrowable create className message stackTrace (rebuiltCause cause)
        (rebuiltSuppressed suppressed)

def rebuiltCause : Option Throwable → Option Throwable
  | none => none
  | some cause => some (rebuilt cause)

def rebuiltSuppressed : List Throwable → List Throwable
  | [] => []
  | first :: rest => rebuilt first :: rebuiltSuppressed rest

end

/-! ## The sizes of the parts -/

theorem length_writeInt (value : Nat) : (writeInt value).length = 4 := by
  rw [writeInt, bigEndian_length]

theorem length_le_writeElements {elements : List StackTraceElement} {bytes : Bytes}
    (written : writeElements elements = .ok bytes) : elements.length ≤ bytes.length := by
  induction elements generalizing bytes with
  | nil => exact Nat.zero_le _
  | cons element elements ih =>
      rw [writeElements] at written
      obtain ⟨first, writtenFirst, written⟩ := bind_eq_ok written
      obtain ⟨later, writtenLater, written⟩ := bind_eq_ok written
      cases written
      rw [writeElement] at writtenFirst
      obtain ⟨className, -, writtenFirst⟩ := bind_eq_ok writtenFirst
      obtain ⟨methodName, -, writtenFirst⟩ := bind_eq_ok writtenFirst
      obtain ⟨fileName, -, writtenFirst⟩ := bind_eq_ok writtenFirst
      cases writtenFirst
      have rest := ih writtenLater
      simp only [List.length_append, List.length_cons, length_writeInt]
      omega

theorem length_le_writeSuppressed {suppressed : List Throwable} {bytes : Bytes}
    (written : writeSuppressed suppressed = .ok bytes) : suppressed.length ≤ bytes.length := by
  induction suppressed generalizing bytes with
  | nil => exact Nat.zero_le _
  | cons first rest ih =>
      rw [writeSuppressed] at written
      obtain ⟨chain, -, written⟩ := bind_eq_ok written
      obtain ⟨later, writtenLater, written⟩ := bind_eq_ok written
      cases written
      have rest := ih writtenLater
      simp only [List.length_append, List.length_cons, length_writeInt]
      omega

/-- The causes come first and are followed by the parts of the exception itself. -/
theorem writeChain_eq_ok {className : JString} {message : Option JString}
    {stackTrace : List StackTraceElement} {cause : Option Throwable}
    {suppressed : List Throwable} {bytes : Bytes}
    (written : writeChain (.mk className message stackTrace cause suppressed) = .ok bytes) :
    ∃ causes name text elements chains, writeCause cause = .ok causes ∧
      writeString className = .ok name ∧ writeNullableString message = .ok text ∧
      writeElements stackTrace = .ok elements ∧ writeSuppressed suppressed = .ok chains ∧
      bytes = causes ++ (name ++ (text ++ (writeInt stackTrace.length ++ elements ++
        (writeInt suppressed.length ++ chains)))) := by
  rw [writeChain] at written
  obtain ⟨causes, writtenCauses, written⟩ := bind_eq_ok written
  obtain ⟨name, writtenName, written⟩ := bind_eq_ok written
  obtain ⟨text, writtenText, written⟩ := bind_eq_ok written
  obtain ⟨elements, writtenElements, written⟩ := bind_eq_ok written
  obtain ⟨chains, writtenChains, written⟩ := bind_eq_ok written
  cases written
  refine ⟨causes, name, text, elements, chains, writtenCauses, writtenName, writtenText,
    writtenElements, writtenChains, ?_⟩
  simp only [List.append_assoc]

theorem chainLength_le {throwable : Throwable} {bytes : Bytes}
    (written : writeChain throwable = .ok bytes) : chainLength throwable ≤ bytes.length := by
  induction throwable using Throwable.induction (Q := fun _ => True) generalizing bytes with
  | root className message stackTrace suppressed _ =>
      obtain ⟨causes, name, text, elements, chains, -, -, -, -, -, rfl⟩ := writeChain_eq_ok written
      simp only [chainLength, List.length_append, length_writeInt]
      omega
  | caused className message stackTrace cause suppressed ih _ =>
      obtain ⟨causes, name, text, elements, chains, writtenCauses, -, -, -, -, rfl⟩ :=
        writeChain_eq_ok written
      have shorter := ih writtenCauses
      simp only [chainLength, List.length_append, length_writeInt]
      omega
  | nil => trivial
  | cons first rest _ _ => trivial

/-! ## What is read of a chain -/

section Restore

variable {create}

theorem restores_readThrowable (create : Reflection) (cause : Option Throwable)
    {readSuppressed : Restore Unit Throwable} {className : JString} {message : Option JString}
    {stackTrace : List StackTraceElement} {suppressed : List Throwable} {count : Nat}
    {name text elements chains : Bytes}
    (writtenName : writeString className = .ok name)
    (writtenText : writeNullableString message = .ok text)
    (writtenElements : writeElements stackTrace = .ok elements)
    (fewElements : stackTrace.length < 2 ^ 31) (few : count < 2 ^ 31)
    (taken : Restores (readTimes count readSuppressed) chains suppressed id) :
    Restores (readThrowable create readSuppressed cause)
      (name ++ (text ++ (writeInt stackTrace.length ++ elements ++ (writeInt count ++ chains))))
      (newThrowable create className message stackTrace cause suppressed) id := by
  rw [readThrowable]
  refine (restores_readString writtenName).bind ?_
  refine (restores_readNullableString writtenText).bind ?_
  refine (Restores.readList fewElements (restores_readElements writtenElements)).bind ?_
  refine (Restores.readInt few).bind ?_
  rw [Int.toNat_natCast]
  exact taken.bind_pure _

theorem restores_readChain {depth count : Nat} {throwable : Throwable} {bytes : Bytes}
    (few : count < 2 ^ 31)
    (causes : Restores (readCauses create (readChain create depth) count) bytes (some throwable)
      id) : Restores (readChain create (depth + 1)) (writeInt count ++ bytes) throwable id := by
  rw [readChain]
  refine (Restores.readInt few).bind ?_
  rw [Int.toNat_natCast]
  have last : Restores (requireNotNull (some throwable)) [] throwable id := Restores.pure throwable
  have taken := causes.bind last
  rw [List.append_nil] at taken
  exact taken

/-- A chain is read with any depth that is not below the number of its bytes. -/
theorem restores_readCauses (throwable : Throwable) :
    ∀ depth bytes, writeChain throwable = .ok bytes → bytes.length ≤ depth →
      bytes.length < 2 ^ 31 →
        Restores (readCauses create (readChain create depth) (chainLength throwable)) bytes
          (some (rebuilt create throwable)) id := by
  induction throwable using Throwable.induction (Q := fun suppressed =>
    ∀ depth bytes, writeSuppressed suppressed = .ok bytes → bytes.length ≤ depth →
      bytes.length < 2 ^ 31 →
        Restores (readTimes suppressed.length (readChain create depth)) bytes
          (rebuiltSuppressed create suppressed) id) with
  | root className message stackTrace suppressed ofSuppressed =>
      intro depth bytes written deep small
      obtain ⟨causes, name, text, elements, chains, writtenCauses, writtenName, writtenText,
        writtenElements, writtenChains, rfl⟩ := writeChain_eq_ok written
      cases writtenCauses
      simp only [List.length_append, length_writeInt, List.length_nil] at deep small
      have fewElements := length_le_writeElements writtenElements
      have few := length_le_writeSuppressed writtenChains
      have taken := ofSuppressed depth chains writtenChains (by omega) (by omega)
      have own := restores_readThrowable create none writtenName writtenText writtenElements
        (by omega) (by omega) taken
      exact (Restores.pure none).bind (own.bind_pure some)
  | caused className message stackTrace cause suppressed ofCause ofSuppressed =>
      intro depth bytes written deep small
      obtain ⟨causes, name, text, elements, chains, writtenCauses, writtenName, writtenText,
        writtenElements, writtenChains, rfl⟩ := writeChain_eq_ok written
      simp only [List.length_append, length_writeInt] at deep small
      have fewElements := length_le_writeElements writtenElements
      have few := length_le_writeSuppressed writtenChains
      have before := ofCause depth causes writtenCauses (by omega) (by omega)
      have taken := ofSuppressed depth chains writtenChains (by omega) (by omega)
      have own := restores_readThrowable create (some (rebuilt create cause)) writtenName
        writtenText writtenElements (by omega) (by omega) taken
      exact before.bind (own.bind_pure some)
  | nil depth bytes written =>
      cases written
      exact Restores.pure []
  | cons first rest ofFirst ofRest depth bytes written deep small =>
      rw [writeSuppressed] at written
      obtain ⟨chain, writtenChain, written⟩ := bind_eq_ok written
      obtain ⟨later, writtenLater, written⟩ := bind_eq_ok written
      cases written
      simp only [List.length_append, length_writeInt] at deep small
      cases depth with
      | zero => omega
      | succ depth =>
          have short := chainLength_le writtenChain
          have causes := ofFirst depth chain writtenChain (by omega) (by omega)
          have others := ofRest (depth + 1) later writtenLater (by omega) (by omega)
          exact (restores_readChain (by omega) causes).readTimes_cons others

end Restore

/-! ## What is kept of an exception -/

theorem foldl_addSuppressed {made : Made} (enabled : made.enableSuppression = true)
    (suppressed : List Throwable) :
    suppressed.foldl Made.addSuppressed made =
      { made with suppressed := made.suppressed ++ suppressed } := by
  induction suppressed generalizing made with
  | nil =>
      rw [List.append_nil]
      rfl
  | cons first rest ih =>
      have added : made.addSuppressed first =
          { made with suppressed := made.suppressed ++ [first] } := if_pos enabled
      have later := @ih { made with suppressed := made.suppressed ++ [first] } enabled
      rw [List.foldl_cons, added, later, List.append_assoc]
      rfl

/-- An exception of the class, or one that has the class and the message in its message. -/
theorem newThrowable_eq {create : Reflection} (asGiven : create.AsGiven) (plain : create.Plain)
    (className : JString) (message : Option JString) (stackTrace : List StackTraceElement)
    (cause : Option Throwable) (suppressed : List Throwable) :
    newThrowable create className message stackTrace cause suppressed =
      if (create className message cause).isSome then
        .mk className message stackTrace cause suppressed
      else .mk runtimeException (some (folded className message)) stackTrace cause suppressed := by
  cases created : create className message cause with
  | none =>
      have added := @foldl_addSuppressed
        { newRuntimeException className message cause with stackTrace } rfl suppressed
      have traced : (newRuntimeException className message cause).setStackTrace stackTrace =
          { newRuntimeException className message cause with stackTrace } := rfl
      simp only [newThrowable, created, traced, added]
      rfl
  | some made =>
      have enabled : made.enableSuppression = true := asGiven.suppression created
      have added := @foldl_addSuppressed { made with stackTrace } enabled suppressed
      have traced : made.setStackTrace stackTrace = { made with stackTrace } :=
        if_pos (plain.writable created)
      simp only [newThrowable, created, traced, added]
      rw [asGiven.message created, asGiven.cause created, plain.suppressed created,
        List.nil_append]
      rfl

theorem newThrowable_kept {create : Reflection} (asGiven : create.AsGiven)
    (plain : create.Plain) {className : JString} {message : Option JString}
    {stackTrace : List StackTraceElement} {cause newCause : Option Throwable}
    {suppressed newSuppressed : List Throwable} (causes : CauseKept cause newCause)
    (suppression : SuppressedKept suppressed newSuppressed) :
    Kept (.mk className message stackTrace cause suppressed)
      (newThrowable create className message stackTrace newCause newSuppressed) := by
  rw [newThrowable_eq asGiven plain]
  split
  · exact .mk (Or.inl ⟨rfl, rfl⟩) causes suppression
  · exact .mk (Or.inr ⟨rfl, rfl⟩) causes suppression

theorem rebuilt_kept {create : Reflection} (asGiven : create.AsGiven) (plain : create.Plain)
    (throwable : Throwable) : Kept throwable (rebuilt create throwable) := by
  induction throwable using Throwable.induction (Q := fun suppressed =>
    SuppressedKept suppressed (rebuiltSuppressed create suppressed)) with
  | root className message stackTrace suppressed ofSuppressed =>
      exact newThrowable_kept asGiven plain .none ofSuppressed
  | caused className message stackTrace cause suppressed ofCause ofSuppressed =>
      exact newThrowable_kept asGiven plain (.some ofCause) ofSuppressed
  | nil => exact .nil
  | cons first rest ofFirst ofRest => exact .cons ofFirst ofRest

theorem chainLength_eq {throwable other : Throwable} (kept : Kept throwable other) :
    chainLength other = chainLength throwable := by
  induction throwable using Throwable.induction (Q := fun _ => True) generalizing other with
  | root className message stackTrace suppressed _ =>
      obtain ⟨-, causes, -⟩ := kept
      cases causes
      rfl
  | caused className message stackTrace cause suppressed ih _ =>
      obtain ⟨-, causes, -⟩ := kept
      cases causes with
      | some keptCause =>
          rw [chainLength, chainLength, ih keptCause]
  | nil => trivial
  | cons first rest _ _ => trivial

/-- What has been written is taken from the front of the input. -/
theorem deserialise_eq {create : Reflection} {throwable : Throwable} {bytes : Bytes}
    (written : serialise throwable = .ok bytes) (rest : Bytes) :
    deserialise create (bytes ++ rest) = (.ok (rebuilt create throwable), rest) := by
  rw [serialise] at written
  obtain ⟨chain, writtenChain, written⟩ := bind_eq_ok written
  dsimp only at written
  split at written
  · rename_i fits
    cases written
    rw [List.length_append, length_writeInt] at fits
    have short := chainLength_le writtenChain
    have deep : chain.length ≤ (writeInt (chainLength throwable) ++ chain ++ rest).length := by
      simp only [List.length_append]
      omega
    have causes := @restores_readCauses create throwable _ chain writtenChain deep (by omega)
    have read := restores_readChain (by omega) causes () rest
    rw [deserialise, read]
  · cases written

/-- Exactly what has been written is read, and the exception read is one with as long a cause chain,
in which everything but the class names and messages is as it was, if reflection makes exceptions
on which a stack trace can be set and that come without suppressed ones. -/
theorem deserialise_throwable {create : Reflection} (asGiven : create.AsGiven)
    (plain : create.Plain) {throwable : Throwable} {bytes : Bytes}
    (written : serialise throwable = .ok bytes) (rest : Bytes) :
    ∃ other, deserialise create (bytes ++ rest) = (.ok other, rest) ∧ Kept throwable other ∧
      chainLength other = chainLength throwable := by
  have kept := rebuilt_kept asGiven plain throwable
  exact ⟨rebuilt create throwable, deserialise_eq written rest, kept, chainLength_eq kept⟩

end Rebuilt

/-- A stack trace, a cause that can be made by reflection and a suppressed exception that cannot. -/
def stateException : Throwable :=
  .mk (jstring "I") (some (jstring "m")) [⟨jstring "C", jstring "f", none, 7⟩]
    (some (.mk (jstring "F") none [] none [])) [.mk (jstring "G") none [] none []]

/-- Every class but `G` has a constructor for the message and the cause. -/
def createAllButG : Reflection := fun className message cause =>
  if className = jstring "G" then none else some ⟨message, cause, [], [], true, true⟩

theorem createAllButG_made {className : JString} {message : Option JString}
    {cause : Option Throwable} {made : Made}
    (created : createAllButG className message cause = some made) :
    made = ⟨message, cause, [], [], true, true⟩ := by
  unfold createAllButG at created
  split at created
  · cases created
  · cases created
    rfl

theorem deserialise_stateException :
    ∃ bytes other, serialise stateException = .ok bytes ∧
      deserialise createAllButG (bytes ++ [1]) = (.ok other, [1]) ∧ Kept stateException other ∧
        chainLength other = chainLength stateException := by
  obtain ⟨bytes, written⟩ : ∃ bytes, serialise stateException = .ok bytes := ⟨_, rfl⟩
  have asGiven : createAllButG.AsGiven :=
    ⟨fun created => by rw [createAllButG_made created],
      fun created => by rw [createAllButG_made created],
      fun created => by rw [createAllButG_made created]⟩
  have plain : createAllButG.Plain :=
    ⟨fun created => by rw [createAllButG_made created],
      fun created => by rw [createAllButG_made created]⟩
  obtain ⟨other, read⟩ := deserialise_throwable asGiven plain written [1]
  exact ⟨bytes, other, written, read⟩

/-- The constructor for a message and a cause turns the stack trace off, as `Throwable` lets it. -/
def createUntraced : Reflection := fun _ message cause => some ⟨message, cause, [], [], false, true⟩

def tracedException : Throwable :=
  .mk (jstring "E") (some (jstring "m")) [⟨jstring "C", jstring "f", none, 7⟩] none []

/-- An exception that was made by another constructor loses its stack trace. -/
theorem untraced_stackTrace_lost :
    ¬∀ (create : Reflection) (throwable : Throwable) (bytes rest : Bytes), create.AsGiven →
      serialise throwable = .ok bytes →
        ∃ other, deserialise create (bytes ++ rest) = (.ok other, rest) ∧ Kept throwable other ∧
          chainLength other = chainLength throwable := by
  intro stated
  obtain ⟨bytes, written⟩ : ∃ bytes, serialise tracedException = .ok bytes := ⟨_, rfl⟩
  have asGiven : createUntraced.AsGiven :=
    ⟨fun created => by cases created; rfl, fun created => by cases created; rfl,
      fun created => by cases created; rfl⟩
  obtain ⟨other, read, kept, -⟩ := stated createUntraced tracedException bytes [] asGiven written
  rw [deserialise_eq written] at read
  have made : other = .mk (jstring "E") (some (jstring "m")) [] none [] := by
    cases read
    rfl
  rw [made, tracedException] at kept
  cases kept

end ThrowableSerialisation

end Conclave.Common
