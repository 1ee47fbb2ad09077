import ConclaveFormal.Client.SavedState

/-!
# Starts that fail

`start` makes the post offices of the saved sequence numbers before it connects.  If it throws after
that, the client stays new and keeps the post offices, and no later start looks at them again.
-/

set_option autoImplicit false

namespace Conclave.Client.Lifecycle

open Conclave.Lib Conclave.Common
open Conclave.Mail (Curve25519PublicKey)

/-! ## The post offices of saved numbers -/

section Restoring

variable {σ : Type} {characters : Characters} {environment : Environment σ}
  {client after : EnclaveClient} {previous : Previous} {info : EnclaveInstanceInfo}

def restoredOffices (info : EnclaveInstanceInfo)
    (entries : List (Sigma fun _ : JString => BitVec 64)) :
    List (Sigma fun _ : JString => PostOffice) :=
  entries.map fun entry => ⟨entry.1, info.encryptionKey, entry.2, false⟩

def EnclaveClient.withRestored (client : EnclaveClient) (info : EnclaveInstanceInfo)
    (entries : List (Sigma fun _ : JString => BitVec 64)) : EnclaveClient :=
  { client with
    postOffices := AssocMap.putAll (restoredOffices info entries) client.postOffices }

/-- The topic and the number are valid, and the private key is one for mail. -/
def Restorable (characters : Characters) (client : EnclaveClient) (info : EnclaveInstanceInfo)
    (entry : Sigma fun _ : JString => BitVec 64) : Prop :=
  ∃ created office, createPostOffice characters client.clientPrivateKey info.encryptionKey
      entry.1 = .ok created ∧ setNextSequenceNumber created entry.2 = .ok office

theorem createPostOffice_eq_ok {key : PrivateKey} {destination : Curve25519PublicKey}
    {topic : JString} {office : PostOffice}
    (created : createPostOffice characters key destination topic = .ok office) :
    office = ⟨destination, 0, false⟩ := by
  cases key with
  | other encoded => cases created
  | curve25519 key =>
      rw [createPostOffice] at created
      split at created
      · cases created
      · cases created
        rfl

theorem setNextSequenceNumber_eq_ok {created office : PostOffice} {sequenceNumber : BitVec 64}
    (numbered : setNextSequenceNumber created sequenceNumber = .ok office) :
    office = { created with sequenceNumber := sequenceNumber } := by
  rw [setNextSequenceNumber] at numbered
  split at numbered
  · cases numbered
  · split at numbered
    · cases numbered
    · cases numbered
      rfl

/-- A number is restored, or it stops the whole. -/
theorem restorePostOffices_cons (entry : Sigma fun _ : JString => BitVec 64)
    (rest : List (Sigma fun _ : JString => BitVec 64)) (client : EnclaveClient) (outside : σ) :
    (Restorable characters client info entry ∧
      restorePostOffices characters info (entry :: rest) (client, outside) =
        restorePostOffices characters info rest (client.withRestored info [entry], outside)) ∨
      ¬Restorable characters client info entry ∧
        ∃ e, restorePostOffices characters info (entry :: rest) (client, outside) =
          (.error e, (client, outside)) := by
  have here : currentClient (client, outside) = (.ok client, (client, outside)) := rfl
  rw [restorePostOffices, Attempt.bind_ok here]
  cases creates : createPostOffice characters client.clientPrivateKey info.encryptionKey
      entry.1 with
  | error e =>
      right
      refine ⟨?_, e, rfl⟩
      rintro ⟨created, office, found, -⟩
      rw [creates] at found
      cases found
  | ok created =>
      cases numbers : setNextSequenceNumber created entry.2 with
      | error e =>
          right
          refine ⟨?_, e, ?_⟩
          · rintro ⟨other, office, found, numbered⟩
            rw [creates] at found
            cases found
            rw [numbers] at numbered
            cases numbered
          · refine (Attempt.bind_ok rfl).trans ?_
            rw [numbers]
            rfl
      | ok office =>
          left
          refine ⟨⟨created, office, creates, numbers⟩, ?_⟩
          refine (Attempt.bind_ok rfl).trans ?_
          rw [numbers]
          refine (Attempt.bind_ok rfl).trans ?_
          refine (Attempt.bind_ok rfl).trans ?_
          rw [setNextSequenceNumber_eq_ok numbers, createPostOffice_eq_ok creates]
          rfl

/-- The numbers are restored in their order, up to the first that cannot be. -/
theorem restorePostOffices_eq (entries : List (Sigma fun _ : JString => BitVec 64))
    (client : EnclaveClient) (outside : σ) :
    ∃ taken result, restorePostOffices characters info entries (client, outside) =
        (result, (client.withRestored info taken, outside)) ∧
      (result = .ok () → taken = entries) ∧
      (taken = [] ↔ ∀ entry ∈ entries.head?, ¬Restorable characters client info entry) := by
  induction entries generalizing client with
  | nil => exact ⟨[], .ok (), rfl, fun _ => rfl, by simp⟩
  | cons entry rest ih =>
      rcases @restorePostOffices_cons σ characters info entry rest client outside with
        ⟨restorable, same⟩ | ⟨fails, e, same⟩
      · obtain ⟨taken, result, later, whole, -⟩ := ih (client.withRestored info [entry])
        refine ⟨entry :: taken, result, same.trans later, ?_, ?_⟩
        · intro returned
          rw [whole returned]
        · simpa using restorable
      · exact ⟨[], .error e, same, by simp, by simpa using fails⟩

/-- The first of the numbers that the client has saved for this enclave is restored. -/
def Stores (characters : Characters) (client : EnclaveClient) (previous : Previous)
    (info : EnclaveInstanceInfo) : Prop :=
  previous.enclaveKey = some info.encryptionKey ∧
    ∃ entry ∈ previous.sequenceNumbers.entries.head?, Restorable characters client info entry

/-- The numbers of an enclave whose key has changed are not used. -/
def Previous.numbersFor (previous : Previous) (info : EnclaveInstanceInfo) :
    List (Sigma fun _ : JString => BitVec 64) :=
  if previous.enclaveKey = some info.encryptionKey then previous.sequenceNumbers.entries else []

theorem resumePostOffices_eq (previous : Previous) (info : EnclaveInstanceInfo)
    (client : EnclaveClient) (outside : σ) :
    ∃ taken result, resumePostOffices characters previous info (client, outside) =
        (result, (client.withRestored info taken, outside)) ∧
      (result = .ok () → taken = previous.numbersFor info) ∧
      (taken = [] ↔ ¬Stores characters client previous info) := by
  rw [resumePostOffices, Previous.numbersFor]
  by_cases same : previous.enclaveKey = some info.encryptionKey
  · rw [if_pos same, if_pos same]
    obtain ⟨taken, result, ran, whole, first⟩ := @restorePostOffices_eq σ characters info
      previous.sequenceNumbers.entries client outside
    refine ⟨taken, result, ran, whole, ?_⟩
    rw [first, Stores]
    simp only [same, true_and, not_exists, not_and]
  · rw [if_neg same, if_neg same]
    exact ⟨[], .ok (), rfl, fun _ => rfl, by simp [Stores, same]⟩

/-! ## What a start leaves behind -/

/-- The part of `start` for a client that is new. -/
theorem start_new (new : client.state = .new previous) (outside : σ) :
    start characters environment (client, outside) = (do
      let info ← callOrThrow .transport environment.enclaveInstanceInfo
      ofExcept ((client.enclaveConstraint.checkAgainst info).mapError .constraint)
      resumePostOffices characters previous info
      callOrThrow .transport environment.connect
      updateClient (setState (.running info)) : Method σ Unit) (client, outside) := by
  have here : currentClient (client, outside) = (.ok client, (client, outside)) := rfl
  rw [start, Attempt.bind_ok here, new]

theorem call_apply {α : Type} (f : σ → α × σ) (client : EnclaveClient) (outside : σ) :
    call f (client, outside) = (.ok (f outside).1, (client, (f outside).2)) := rfl

theorem callOrThrow_some {α : Type} {exception : ClientException} {f : σ → Option α × σ}
    {value : α} {outside next : σ} (answered : f outside = (some value, next))
    (client : EnclaveClient) :
    callOrThrow exception f (client, outside) = (.ok value, (client, next)) := by
  rw [callOrThrow, Attempt.bind_ok (call_apply f client outside), answered]
  rfl

theorem callOrThrow_none {α : Type} {exception : ClientException} {f : σ → Option α × σ}
    {outside next : σ} (answered : f outside = (none, next)) (client : EnclaveClient) :
    callOrThrow exception f (client, outside) = (.error exception, (client, next)) := by
  rw [callOrThrow, Attempt.bind_ok (call_apply f client outside), answered]
  rfl

theorem callOrThrow_eq_ok {α : Type} {exception : ClientException} {f : σ → Option α × σ}
    {value : α} {state next : EnclaveClient × σ}
    (ran : callOrThrow exception f state = (.ok value, next)) :
    state.1 = next.1 ∧ (f state.2).1 = some value := by
  obtain ⟨client, outside⟩ := state
  rw [callOrThrow, Attempt.bind_ok (call_apply f client outside)] at ran
  cases answered : (f outside).1 with
  | none =>
      rw [answered] at ran
      cases ran
  | some other =>
      rw [answered] at ran
      cases ran
      exact ⟨rfl, rfl⟩

theorem callOrThrow_eq_error {α : Type} {exception e : ClientException} {f : σ → Option α × σ}
    {state next : EnclaveClient × σ} (ran : callOrThrow exception f state = (.error e, next)) :
    next.1 = state.1 ∧ (f state.2).1 = none := by
  obtain ⟨client, outside⟩ := state
  rw [callOrThrow, Attempt.bind_ok (call_apply f client outside)] at ran
  cases answered : (f outside).1 with
  | none =>
      rw [answered] at ran
      cases ran
      exact ⟨rfl, rfl⟩
  | some value =>
      rw [answered] at ran
      cases ran

theorem ofExcept_eq_error {α : Type} {result : Except ClientException α} {e : ClientException}
    {state next : EnclaveClient × σ} (ran : ofExcept result state = (.error e, next)) :
    next = state ∧ result = .error e := by
  cases result with
  | ok value => cases ran
  | error thrown =>
      cases ran
      exact ⟨rfl, rfl⟩

theorem ofExcept_checkAgainst {constraint : EnclaveConstraint} {state next : EnclaveClient × σ}
    (ran : ofExcept ((constraint.checkAgainst info).mapError .constraint) state =
      (.ok (), next)) : constraint.checkAgainst info = .ok () ∧ next = state := by
  cases checked : constraint.checkAgainst info with
  | error e =>
      rw [checked] at ran
      cases ran
  | ok value =>
      rw [checked] at ran
      cases ran
      exact ⟨rfl, rfl⟩

/-- A start that throws changes nothing unless the enclave has passed the check; then it has
restored the numbers up to the first that cannot be. -/
theorem start_threw (new : client.state = .new previous) {outside outsideAfter : σ}
    {e : ClientException}
    (threw : start characters environment (client, outside) = (.error e, (after, outsideAfter))) :
    (after = client ∧ ∀ info, (environment.enclaveInstanceInfo outside).1 = some info →
        client.enclaveConstraint.checkAgainst info ≠ .ok ()) ∨
      ∃ info taken, (environment.enclaveInstanceInfo outside).1 = some info ∧
      client.enclaveConstraint.checkAgainst info = .ok () ∧
      after = client.withRestored info taken ∧
      (taken = [] ↔ ¬Stores characters client previous info) := by
  rw [start_new new] at threw
  rcases Attempt.bind_eq_error threw with failed | ⟨info, ⟨_, outsideNow⟩, downloaded, checking⟩
  · obtain ⟨same, missing⟩ := callOrThrow_eq_error failed
    refine Or.inl ⟨same, ?_⟩
    intro info answered
    rw [missing] at answered
    cases answered
  obtain ⟨rfl, answered⟩ := callOrThrow_eq_ok downloaded
  rcases Attempt.bind_eq_error checking with failed | ⟨_, next, checks, resuming⟩
  · obtain ⟨same, fails⟩ := ofExcept_eq_error failed
    refine Or.inl ⟨congrArg Prod.fst same, ?_⟩
    intro other again checked
    rw [answered] at again
    cases again
    rw [checked] at fails
    cases fails
  obtain ⟨checked, rfl⟩ := ofExcept_checkAgainst checks
  obtain ⟨taken, result, resumed, -, stores⟩ := @resumePostOffices_eq σ characters previous info
    client outsideNow
  refine Or.inr ⟨info, taken, answered, checked, ?_, stores⟩
  rcases Attempt.bind_eq_error resuming with failed | ⟨_, next, resumes, connecting⟩
  · rw [resumed] at failed
    cases failed
    rfl
  · rw [resumed] at resumes
    cases resumes
    rcases Attempt.bind_eq_error connecting with failed | ⟨_, _, -, finishing⟩
    · exact (callOrThrow_eq_error failed).1
    · cases finishing

/-- A start that returns has restored all the numbers of the enclave. -/
theorem start_returned (new : client.state = .new previous) {outside outsideAfter : σ}
    (returned : start characters environment (client, outside) = (.ok (), (after, outsideAfter))) :
    ∃ info, client.enclaveConstraint.checkAgainst info = .ok () ∧
      after = setState (.running info) (client.withRestored info (previous.numbersFor info)) := by
  rw [start_new new] at returned
  obtain ⟨info, ⟨_, outsideNow⟩, downloaded, checking⟩ := Attempt.bind_eq_ok returned
  obtain ⟨_, next, checks, resuming⟩ := Attempt.bind_eq_ok checking
  obtain ⟨_, middle, resumes, connecting⟩ := Attempt.bind_eq_ok resuming
  obtain ⟨_, ⟨_, _⟩, connects, finishing⟩ := Attempt.bind_eq_ok connecting
  obtain ⟨rfl, -⟩ := callOrThrow_eq_ok downloaded
  obtain ⟨checked, rfl⟩ := ofExcept_checkAgainst checks
  obtain ⟨taken, result, resumed, whole, -⟩ := @resumePostOffices_eq σ characters previous info
    client outsideNow
  rw [resumed] at resumes
  cases resumes
  obtain ⟨rfl, -⟩ := callOrThrow_eq_ok connects
  cases finishing
  refine ⟨info, checked, ?_⟩
  rw [← whole rfl]

theorem start_checked (new : client.state = .new previous) {outside next : σ}
    (downloads : environment.enclaveInstanceInfo outside = (some info, next))
    (checked : client.enclaveConstraint.checkAgainst info = .ok ()) :
    start characters environment (client, outside) = (do
      resumePostOffices characters previous info
      callOrThrow .transport environment.connect
      updateClient (setState (.running info)) : Method σ Unit) (client, next) := by
  rw [start_new new, Attempt.bind_ok (callOrThrow_some downloads client), checked]
  exact Attempt.bind_ok rfl

theorem start_unaccepted (new : client.state = .new previous) {outside next : σ} {e : CheckError}
    (downloads : environment.enclaveInstanceInfo outside = (some info, next))
    (checked : client.enclaveConstraint.checkAgainst info = .error e) :
    start characters environment (client, outside) = (.error (.constraint e), (client, next)) := by
  rw [start_new new, Attempt.bind_ok (callOrThrow_some downloads client), checked]
  exact Attempt.bind_error rfl

/-- A client is started by a transport that it can connect to, with an enclave it accepts. -/
theorem start_welcomed (new : client.state = .new previous)
    (checked : client.enclaveConstraint.checkAgainst info = .ok ())
    (changed : previous.enclaveKey ≠ some info.encryptionKey) {outside : σ}
    (downloads : environment.enclaveInstanceInfo outside = (some info, outside))
    (connects : environment.connect outside = (some (), outside)) :
    start characters environment (client, outside) =
      (.ok (), (setState (.running info) client, outside)) := by
  rw [start_checked new downloads checked, resumePostOffices, if_neg changed]
  refine (Attempt.bind_ok rfl).trans ?_
  rw [Attempt.bind_ok (callOrThrow_some connects client)]
  rfl

end Restoring

/-! ## The post office of a started client -/

section Started

variable {σ : Type} {characters : Characters} {maxArrayLength : Nat} {environment : Environment σ}
  {client : EnclaveClient} {info : EnclaveInstanceInfo} {topic : JString}

theorem postOffice_cached {office : PostOffice}
    (cached : client.postOffices.lookup topic = some office)
    (outside : σ) :
    postOffice characters topic (client, outside) = (.ok office, (client, outside)) := by
  have here : currentClient (client, outside) = (.ok client, (client, outside)) := rfl
  rw [postOffice, Attempt.bind_ok here, cached]
  rfl

theorem postOffice_cases (running : client.state = .running info) (outside : σ) :
    (∃ e, postOffice characters topic (client, outside) = (.error e, (client, outside))) ∨
      ∃ office after, postOffice characters topic (client, outside) =
          (.ok office, (after, outside)) ∧
        (client.postOffices.lookup topic = some office ∧ after = client ∨
          client.postOffices.lookup topic = none ∧ office = ⟨info.encryptionKey, 0, false⟩ ∧
            after = putPostOffice topic office client) := by
  have here : currentClient (client, outside) = (.ok client, (client, outside)) := rfl
  cases cached : client.postOffices.lookup topic with
  | some office =>
      exact Or.inr ⟨office, client, postOffice_cached cached outside, Or.inl ⟨rfl, rfl⟩⟩
  | none =>
      rw [postOffice, Attempt.bind_ok here, cached, running]
      cases created : createPostOffice characters client.clientPrivateKey info.encryptionKey
          topic with
      | error e =>
          left
          refine ⟨e, (Attempt.bind_ok rfl).trans ?_⟩
          rw [created]
          rfl
      | ok office =>
          right
          refine ⟨office, putPostOffice topic office client, ?_, Or.inr ⟨rfl, ?_, rfl⟩⟩
          · refine (Attempt.bind_ok rfl).trans ?_
            rw [created]
            rfl
          · exact createPostOffice_eq_ok created

theorem postOffice_eq_ok (running : client.state = .running info) {outside : σ}
    {office : PostOffice} {next : EnclaveClient × σ}
    (found : postOffice characters topic (client, outside) = (.ok office, next)) :
    client.postOffices.lookup topic = some office ∨
      client.postOffices.lookup topic = none ∧ office = ⟨info.encryptionKey, 0, false⟩ := by
  rcases @postOffice_cases σ characters client info topic running outside with
    ⟨e, threw⟩ | ⟨other, after, same, ⟨known, -⟩ | ⟨unknown, new, -⟩⟩
  · rw [threw] at found
    cases found
  · rw [same] at found
    cases found
    exact Or.inl known
  · rw [same] at found
    cases found
    exact Or.inr ⟨unknown, new⟩

theorem encryptMail_eq_ok {body : Bytes} {envelope : Option Bytes} {mail : SentMail}
    {state next : EnclaveClient × σ}
    (encrypted : encryptMail characters maxArrayLength environment topic body envelope state =
      (.ok mail, next)) :
    ∃ office after, postOffice characters topic state = (.ok office, after) ∧
      mail.destination = office.destinationPublicKey ∧
      mail.header.sequenceNumber = office.sequenceNumber := by
  obtain ⟨office, after, found, encrypted⟩ := Attempt.bind_eq_ok encrypted
  obtain ⟨_, _, _, encrypted⟩ := Attempt.bind_eq_ok encrypted
  obtain ⟨minSize, _, _, encrypted⟩ := Attempt.bind_eq_ok encrypted
  refine ⟨office, after, found, ?_⟩
  split at encrypted
  · obtain ⟨client, _, _, encrypted⟩ := Attempt.bind_eq_ok encrypted
    cases encrypted
    exact ⟨rfl, rfl⟩
  · cases encrypted

end Started

/-! ## The mail that the transport is given -/

section Recording

variable {σ α β : Type} {characters : Characters} {maxArrayLength : Nat}
  {environment : Environment σ} {client : EnclaveClient}

def recorded (f : σ → α × σ) : σ × List SentMail → α × (σ × List SentMail) :=
  fun (outside, sent) =>
    let (answer, outside) := f outside
    (answer, (outside, sent))

/-- The transport, with the mail that it has been given to send. -/
def Environment.recording (environment : Environment σ) : Environment (σ × List SentMail) where
  enclaveInstanceInfo := recorded environment.enclaveInstanceInfo
  connect := recorded environment.connect
  disconnect := recorded environment.disconnect
  minSize topic size := recorded (environment.minSize topic size)
  sendMail mail := fun (outside, sent) =>
    let (reply, outside) := environment.sendMail mail outside
    (reply, (outside, sent ++ [mail]))
  pollMail := recorded environment.pollMail

/-- The method gives the transport no mail, whether it returns or throws. -/
def SendsNone (method : Method (σ × List SentMail) α) : Prop :=
  Attempt.Preserves (fun before after => after.2.2 = before.2.2) method

theorem SendsNone.pure (value : α) : SendsNone (σ := σ) (Pure.pure value) := fun _ => rfl

theorem SendsNone.throw (exception : ClientException) :
    SendsNone (σ := σ) (α := α) (Attempt.throw exception) := fun _ => rfl

theorem SendsNone.bind {method : Method (σ × List SentMail) α}
    {next : α → Method (σ × List SentMail) β} (first : SendsNone method)
    (second : ∀ value, SendsNone (next value)) : SendsNone (method >>= next) :=
  Attempt.Preserves.bind (fun _ _ _ before after => after.trans before) first second

theorem SendsNone.currentClient : SendsNone (σ := σ) currentClient := fun _ => rfl

theorem SendsNone.updateClient (change : EnclaveClient → EnclaveClient) :
    SendsNone (σ := σ) (updateClient change) := fun _ => rfl

theorem SendsNone.callOrThrow (exception : ClientException) (f : σ → Option α × σ) :
    SendsNone (callOrThrow exception (recorded f)) := by
  refine SendsNone.bind (fun _ => rfl) ?_
  intro answer
  cases answer with
  | none => exact SendsNone.throw exception
  | some value => exact SendsNone.pure value

theorem SendsNone.ofExcept (result : Except ClientException α) :
    SendsNone (σ := σ) (ofExcept result) := by
  cases result with
  | error exception => exact SendsNone.throw exception
  | ok value => exact SendsNone.pure value

theorem SendsNone.postOffice (topic : JString) :
    SendsNone (σ := σ) (postOffice characters topic) := by
  refine SendsNone.bind SendsNone.currentClient ?_
  intro client
  cases client.postOffices.lookup topic with
  | some office => exact SendsNone.pure office
  | none =>
      refine SendsNone.bind (SendsNone.ofExcept _) fun info => ?_
      refine SendsNone.bind (SendsNone.ofExcept _) fun office => ?_
      exact SendsNone.bind (SendsNone.updateClient _) fun _ => SendsNone.pure office

theorem SendsNone.encryptMail (topic : JString) (body : Bytes) (envelope : Option Bytes) :
    SendsNone (encryptMail characters maxArrayLength environment.recording topic body
      envelope) := by
  refine SendsNone.bind (SendsNone.postOffice topic) fun office => ?_
  refine SendsNone.bind (SendsNone.updateClient _) fun _ => ?_
  refine SendsNone.bind (SendsNone.callOrThrow _ _) fun minSize => ?_
  split
  · exact SendsNone.bind SendsNone.currentClient fun client => SendsNone.pure _
  · exact SendsNone.throw _

theorem SendsNone.processMail (received : Received) :
    SendsNone (σ := σ) (processMail received) := by
  cases received with
  | mailDecryption => exact SendsNone.throw _
  | otherSender => exact SendsNone.throw _
  | opened privateHeader =>
      cases privateHeader with
      | none => exact SendsNone.pure _
      | some privateHeader =>
          rw [Lifecycle.processMail]
          split
          · exact SendsNone.throw _
          · refine SendsNone.bind SendsNone.currentClient fun client => ?_
            dsimp only
            split
            · refine SendsNone.bind (SendsNone.updateClient _) fun _ => ?_
              split
              · exact SendsNone.throw _
              · exact SendsNone.pure _
            · exact SendsNone.pure _

theorem SendsNone.redownload (info : EnclaveInstanceInfo) :
    SendsNone (redownload environment.recording info) := by
  refine SendsNone.bind (SendsNone.callOrThrow _ _) fun newInfo => ?_
  split
  · exact SendsNone.throw _
  · refine SendsNone.bind SendsNone.currentClient fun client => ?_
    split
    · exact SendsNone.throw _
    · exact SendsNone.throw _
    · exact SendsNone.bind (SendsNone.updateClient _) fun _ => SendsNone.updateClient _

/-- The mail that has been sent stays sent. -/
def KeepsSent (method : Method (σ × List SentMail) α) : Prop :=
  Attempt.Preserves (fun before after => before.2.2 <+: after.2.2) method

theorem SendsNone.keepsSent {method : Method (σ × List SentMail) α} (none : SendsNone method) :
    KeepsSent method := by
  intro state
  refine ⟨[], ?_⟩
  rw [List.append_nil, none state]

theorem KeepsSent.bind {method : Method (σ × List SentMail) α}
    {next : α → Method (σ × List SentMail) β} (first : KeepsSent method)
    (second : ∀ value, KeepsSent (next value)) : KeepsSent (method >>= next) :=
  Attempt.Preserves.bind (fun _ _ _ before after => before.trans after) first second

theorem exists_sent {before final : List SentMail} {mail : SentMail} {P : SentMail → Prop}
    (kept : before ++ [mail] <+: final) (first : P mail) :
    ∃ sent, final = before ++ sent ∧ ∀ other ∈ sent.head?, P other := by
  obtain ⟨more, rfl⟩ := kept
  refine ⟨mail :: more, List.append_assoc _ _ _, ?_⟩
  rintro other ⟨⟩
  exact first

/-- Every attempt to send encrypts one mail, and the first of them is that of the post office that
the client has for the topic. -/
theorem sendAttempts_sent (topic : JString) (body : Bytes) (envelope : Option Bytes)
    (attempts : Nat) (state : EnclaveClient × (σ × List SentMail)) :
    ∃ sent, (sendAttempts characters maxArrayLength environment.recording topic body envelope
        attempts state).2.2.2 = state.2.2 ++ sent ∧
      ∀ mail ∈ sent.head?, ∃ office after, postOffice characters topic state = (.ok office, after) ∧
        mail.destination = office.destinationPublicKey ∧
        mail.header.sequenceNumber = office.sequenceNumber := by
  induction attempts generalizing state with
  | zero => exact ⟨[], (List.append_nil _).symm, by simp⟩
  | succ attempts ih =>
      have again : KeepsSent (sendAttempts characters maxArrayLength environment.recording topic
          body envelope attempts) := by
        intro state
        obtain ⟨sent, same, -⟩ := ih state
        rw [same]
        exact List.prefix_append _ _
      have unsent : SendsNone (encryptMail characters maxArrayLength environment.recording topic
        body envelope) := SendsNone.encryptMail topic body envelope
      have before := unsent state
      rw [sendAttempts]
      cases encrypted : encryptMail characters maxArrayLength environment.recording topic body
          envelope state with
      | mk outcome middle =>
          rw [encrypted] at before
          cases outcome with
          | error e =>
              rw [Attempt.bind_error encrypted]
              exact ⟨[], before.trans (List.append_nil _).symm, by simp⟩
          | ok mail =>
              obtain ⟨client, outside, sent⟩ := middle
              cases before
              have called :
                  call (environment.recording.sendMail mail) (client, outside, state.2.2) =
                  (.ok (environment.sendMail mail outside).1, (client,
                    (environment.sendMail mail outside).2, state.2.2 ++ [mail])) := rfl
              rw [Attempt.bind_ok encrypted, Attempt.bind_ok called]
              refine exists_sent ?_ (encryptMail_eq_ok encrypted)
              cases (environment.sendMail mail outside).1 with
              | exception => exact List.prefix_rfl
              | mailDecryption =>
                  refine (KeepsSent.bind SendsNone.currentClient.keepsSent fun client => ?_)
                    (client, (environment.sendMail mail outside).2, state.2.2 ++ [mail])
                  refine KeepsSent.bind (SendsNone.ofExcept _).keepsSent fun info => ?_
                  exact KeepsSent.bind (SendsNone.redownload info).keepsSent fun _ => again
              | response mail =>
                  cases mail with
                  | none => exact List.prefix_rfl
                  | some received =>
                      exact (SendsNone.processMail received).keepsSent
                        (client, (environment.sendMail mail outside).2, state.2.2 ++ [mail])

theorem sendMail_first {info : EnclaveInstanceInfo} (running : client.state = .running info)
    (topic : JString) (body : Bytes) (envelope : Option Bytes) (outside : σ) {mail : SentMail}
    (first : mail ∈ (sendMail characters maxArrayLength environment.recording topic body envelope
      (client, (outside, []))).2.2.2.head?) :
    ∃ office after, postOffice characters topic (client, (outside, ([] : List SentMail))) =
        (.ok office, after) ∧
      mail.destination = office.destinationPublicKey ∧
      mail.header.sequenceNumber = office.sequenceNumber := by
  have here : currentClient (client, (outside, ([] : List SentMail))) =
      (.ok client, (client, (outside, []))) := rfl
  rw [sendMail, Attempt.bind_ok here, running] at first
  obtain ⟨sent, same, numbered⟩ := @sendAttempts_sent σ characters maxArrayLength environment topic
    body envelope MAX_RETRY_ATTEMPTS (client, (outside, []))
  rw [same, List.nil_append] at first
  exact numbered mail first

end Recording

/-! ## A client that can still be started -/

section Usable

variable {characters : Characters} {maxArrayLength : Nat} {client after : EnclaveClient}
  {previous : Previous} {info : EnclaveInstanceInfo}

/-- The number that the enclave expects of a client that has saved these ones. -/
def Previous.expectedNumber (previous : Previous) (info : EnclaveInstanceInfo) (topic : JString) :
    BitVec 64 :=
  if previous.enclaveKey = some info.encryptionKey then
    (previous.sequenceNumbers.lookup topic).getD 0
  else 0

/-- After any start that returns, the post office of a topic, and so the first mail that `sendMail`
gives the transport, has the key of the enclave and the number that it expects. -/
def StartsRight (characters : Characters) (maxArrayLength : Nat) (previous : Previous)
    (client : EnclaveClient) : Prop :=
  ∀ (σ : Type) (environment : Environment σ) (outside outsideAfter : σ) (started : EnclaveClient)
    (info : EnclaveInstanceInfo),
    start characters environment (client, outside) = (.ok (), (started, outsideAfter)) →
    started.state = .running info → ∀ topic,
      (∀ office after, postOffice characters topic (started, outsideAfter) = (.ok office, after) →
        office.destinationPublicKey = info.encryptionKey ∧
          office.sequenceNumber = previous.expectedNumber info topic) ∧
      ∀ body envelope, ∀ mail ∈ (sendMail characters maxArrayLength environment.recording topic body
          envelope (started, (outsideAfter, []))).2.2.2.head?,
        mail.destination = info.encryptionKey ∧
          mail.header.sequenceNumber = previous.expectedNumber info topic

theorem lookup_withRestored (empty : client.postOffices = ∅) (previous : Previous)
    (info : EnclaveInstanceInfo) (topic : JString) :
    (client.withRestored info (previous.numbersFor info)).postOffices.lookup topic =
      if previous.enclaveKey = some info.encryptionKey then
        (previous.sequenceNumbers.lookup topic).map fun number =>
          ⟨info.encryptionKey, number, false⟩
      else none := by
  rw [EnclaveClient.withRestored, Previous.numbersFor, empty]
  split
  · have numbered := AssocMap.lookup_putAll_entries (previous.sequenceNumbers.replaceAll
      fun _ number => (⟨info.encryptionKey, number, false⟩ : PostOffice)) topic
    rw [AssocMap.lookup_replaceAll] at numbered
    exact numbered
  · rfl

theorem postOffice_right (empty : client.postOffices = ∅) {σ : Type} {outside : σ} {topic : JString}
    {office : PostOffice} {next : EnclaveClient × σ}
    (found : postOffice characters topic (setState (.running info)
      (client.withRestored info (previous.numbersFor info)), outside) = (.ok office, next)) :
    office.destinationPublicKey = info.encryptionKey ∧
      office.sequenceNumber = previous.expectedNumber info topic := by
  have cached := lookup_withRestored empty previous info topic
  rw [Previous.expectedNumber]
  rcases postOffice_eq_ok rfl found with known | ⟨unknown, rfl⟩
  · have same := cached.symm.trans known
    split at same
    · rename_i unchanged
      obtain ⟨number, saved, rfl⟩ := Option.map_eq_some_iff.mp same
      rw [if_pos unchanged, saved]
      exact ⟨rfl, rfl⟩
    · cases same
  · have same := cached.symm.trans unknown
    refine ⟨rfl, ?_⟩
    split at same
    · rename_i unchanged
      rw [if_pos unchanged, Option.map_eq_none_iff.mp same]
      rfl
    · rename_i changed
      rw [if_neg changed]

/-- A client without post offices is started right. -/
theorem startsRight_of_empty (new : client.state = .new previous) (empty : client.postOffices = ∅) :
    StartsRight characters maxArrayLength previous client := by
  intro σ environment outside outsideAfter started info returned running topic
  obtain ⟨other, -, rfl⟩ := start_returned new returned
  cases running
  refine ⟨fun office after found => postOffice_right empty found, ?_⟩
  intro body envelope mail first
  obtain ⟨office, after, found, destination, number⟩ :=
    sendMail_first rfl topic body envelope outsideAfter first
  obtain ⟨key, expected⟩ := postOffice_right empty found
  exact ⟨destination.trans key, number.trans expected⟩

/-! ## What failed starts have left -/

/-- The post offices of a client that is still new are for an enclave that has passed the check,
with the key that the client has saved. -/
def LeftFromStart (client : EnclaveClient) : Prop :=
  ∀ previous, client.state = .new previous → ∀ topic office,
    client.postOffices.lookup topic = some office →
    ∃ info, client.enclaveConstraint.checkAgainst info = .ok () ∧
      previous.enclaveKey = some info.encryptionKey ∧
      office.destinationPublicKey = info.encryptionKey

theorem LeftFromStart.of_started (started : Started client) : LeftFromStart client := by
  obtain ⟨info, running⟩ := started
  intro previous new
  rw [running] at new
  cases new

theorem LeftFromStart.of_empty (empty : client.postOffices = ∅) : LeftFromStart client := by
  intro previous new topic office found
  rw [empty] at found
  cases found

theorem LeftFromStart.withRestored (left : LeftFromStart client)
    (new : client.state = .new previous)
    {taken : List (Sigma fun _ : JString => BitVec 64)}
    (checked : client.enclaveConstraint.checkAgainst info = .ok ())
    (stores : taken = [] ↔ ¬Stores characters client previous info) :
    LeftFromStart (client.withRestored info taken) := by
  intro other again topic office found
  have same : previous = other := ClientState.new.inj (new.symm.trans again)
  subst same
  rcases AssocMap.mem_or_of_lookup_putAll found with restored | before
  · obtain ⟨entry, member, made⟩ := List.mem_map.mp restored
    cases made
    have known : Stores characters client previous info := by
      by_contra none_stored
      rw [stores.mpr none_stored] at member
      cases member
    exact ⟨info, checked, known.1, rfl⟩
  · exact left previous new topic office before

theorem LeftFromStart.start {σ : Type} (environment : Environment σ) (left : LeftFromStart client)
    (outside : σ) : LeftFromStart (start characters environment (client, outside)).2.1 := by
  have here : currentClient (client, outside) = (.ok client, (client, outside)) := rfl
  cases state : client.state with
  | running info =>
      rw [Lifecycle.start, Attempt.bind_ok here, state]
      exact left
  | closed running =>
      rw [Lifecycle.start, Attempt.bind_ok here, state]
      exact left
  | new previous =>
      cases ran : Lifecycle.start characters environment (client, outside) with
      | mk result next =>
          obtain ⟨after, outsideAfter⟩ := next
          cases result with
          | ok value =>
              obtain ⟨info, -, rfl⟩ := start_returned state ran
              exact .of_started ⟨info, rfl⟩
          | error e =>
              rcases start_threw state ran with ⟨rfl, -⟩ | ⟨info, taken, -, checked, rfl, stores⟩
              · exact left
              · exact left.withRestored state checked stores

theorem LeftFromStart.afterClose : LeftFromStart client.afterClose := by
  intro previous new
  rw [EnclaveClient.afterClose] at new
  cases state : client.state with
  | new other =>
      rw [state] at new
      cases new
  | running info =>
      rw [state] at new
      cases new
  | closed running =>
      simp only [state] at new
      cases new

theorem LeftFromStart.operated {σ : Type} (environment : Environment σ)
    (left : LeftFromStart client)
    (operation : Operation) (outside : σ) :
    LeftFromStart
      (operation.method characters maxArrayLength environment (client, outside)).2.1 := by
  cases operation with
  | start => exact left.start environment outside
  | sendMail topic body envelope =>
      by_cases started : Started client
      · have stillStarted := started_sendMail characters maxArrayLength environment topic body
          envelope (client, outside) started
        exact .of_started stillStarted
      · rw [Operation.method, sendMail_of_not_started _ _ _ started]
        exact left
  | pollMail =>
      by_cases started : Started client
      · exact .of_started (started_pollMail environment (client, outside) started)
      · rw [Operation.method, pollMail_of_not_started _ started]
        exact left
  | close =>
      rw [Operation.method, close_client]
      exact .afterClose

theorem Reachable.leftFromStart (reachable : Reachable characters maxArrayLength client) :
    LeftFromStart client := by
  induction reachable with
  | constructed clientPrivateKey enclaveConstraint => exact .of_empty rfl
  | restored restores => exact .of_empty (restoreState_fresh restores).postOffices
  | operated environment outside operation _ left =>
      exact left.operated environment operation outside

/-! ## When a start that fails does no harm -/

theorem size_repeated (byte : UInt8) : (List.replicate 32 byte).length = 32 :=
  List.length_replicate

theorem hashSize_repeated (byte : UInt8) :
    (List.replicate 32 byte).length = 32 ∨ (List.replicate 32 byte).length = 64 :=
  Or.inl (size_repeated byte)

def repeatedKey (byte : UInt8) : Curve25519PublicKey := ⟨List.replicate 32 byte, size_repeated byte⟩

theorem exists_other_key (key : Curve25519PublicKey) :
    ∃ other : Curve25519PublicKey, other ≠ key := by
  by_cases same : repeatedKey 0 = key
  · refine ⟨repeatedKey 1, fun both => ?_⟩
    have equal : repeatedKey 0 = repeatedKey 1 := same.trans both.symm
    exact absurd equal (by decide)
  · exact ⟨repeatedKey 0, same⟩

/-- A transport of an enclave that it can always connect to. -/
def welcoming (info : EnclaveInstanceInfo) : Environment Unit where
  enclaveInstanceInfo _ := (some info, ())
  connect _ := (some (), ())
  disconnect _ := (none, ())
  minSize _ _ _ := (none, ())
  sendMail _ _ := (.exception, ())
  pollMail _ := (none, ())

/-- A post office that is left keeps the old key after a start with a changed one. -/
theorem empty_of_startsRight (left : LeftFromStart client) (new : client.state = .new previous)
    (right : StartsRight characters maxArrayLength previous client) : client.postOffices = ∅ := by
  by_contra nonempty
  have has : ∃ topic office, client.postOffices.lookup topic = some office := by
    cases listed : client.postOffices.entries with
    | nil => exact absurd (AList.ext listed) nonempty
    | cons entry rest =>
        refine ⟨entry.1, entry.2, ?_⟩
        rw [AList.lookup, listed]
        exact List.dlookup_cons_eq rest entry.1 entry.2
  obtain ⟨topic, office, known⟩ := has
  obtain ⟨info, checked, saved, destination⟩ := left previous new topic office known
  obtain ⟨other, different⟩ := exists_other_key info.encryptionKey
  let changed : EnclaveInstanceInfo := { info with encryptionKey := other }
  have accepted : client.enclaveConstraint.checkAgainst changed = .ok () := checked
  have unsaved : previous.enclaveKey ≠ some changed.encryptionKey := by
    rw [saved]
    exact fun same => different (Option.some.inj same).symm
  have started : Lifecycle.start characters (welcoming changed) (client, ()) =
      (.ok (), (setState (.running changed) client, ())) :=
    start_welcomed new accepted unsaved rfl rfl
  have kept : (setState (.running changed) client).postOffices.lookup topic = some office := known
  have cached : postOffice characters topic (setState (.running changed) client, ()) =
      (.ok office, (setState (.running changed) client, ())) := postOffice_cached kept ()
  have offices := (right Unit (welcoming changed) () () _ changed started rfl topic).1
  exact different ((offices office _ cached).1.symm.trans destination)

theorem withRestored_ne (empty : client.postOffices = ∅)
    {taken : List (Sigma fun _ : JString => BitVec 64)} (some_taken : taken ≠ []) :
    client.withRestored info taken ≠ client := by
  intro same
  obtain ⟨entry, rest, rfl⟩ := List.exists_cons_of_ne_nil some_taken
  have offices : AssocMap.putAll (restoredOffices info (entry :: rest)) client.postOffices =
      client.postOffices := congrArg EnclaveClient.postOffices same
  have member : entry.1 ∈ client.postOffices := by
    rw [← offices, AssocMap.mem_putAll]
    exact Or.inl List.mem_cons_self
  rw [empty] at member
  exact AList.notMem_empty entry.1 member

/-- After a start that throws the client is as it was, and will be started right, exactly if no
earlier start has left post offices and this one has not restored the first of the numbers. -/
theorem failedStart_harmless_iff (reachable : Reachable characters maxArrayLength client)
    (new : client.state = .new previous) {σ : Type} {environment : Environment σ}
    {outside outsideAfter : σ} {e : ClientException}
    (threw : start characters environment (client, outside) = (.error e, (after, outsideAfter))) :
    (after = client ∧ StartsRight characters maxArrayLength previous after) ↔
      client.postOffices = ∅ ∧ ∀ info, (environment.enclaveInstanceInfo outside).1 = some info →
        client.enclaveConstraint.checkAgainst info = .ok () →
        ¬Stores characters client previous info := by
  constructor
  · rintro ⟨rfl, right⟩
    have empty := empty_of_startsRight reachable.leftFromStart new right
    refine ⟨empty, ?_⟩
    intro info downloaded checked stores
    rcases start_threw new threw with ⟨-, refused⟩ | ⟨other, taken, again, -, same, iff_stores⟩
    · exact refused info downloaded checked
    · rw [downloaded] at again
      cases again
      refine withRestored_ne empty ?_ same.symm
      intro none_taken
      exact iff_stores.mp none_taken stores
  · rintro ⟨empty, condition⟩
    have same : after = client := by
      rcases start_threw new threw with ⟨same, -⟩ | ⟨info, taken, downloaded, checked, same, stores⟩
      · exact same
      · rw [same, stores.mpr (condition info downloaded checked)]
        rfl
    subst same
    exact ⟨rfl, startsRight_of_empty new empty⟩

end Usable

/-! ### A connection that is refused -/

section Example

def repeatedHash (byte : UInt8) : SecureHash := ⟨List.replicate 32 byte, hashSize_repeated byte⟩

def enclaveWithKey (byte : UInt8) : EnclaveInstanceInfo where
  encryptionKey := repeatedKey byte
  enclaveInfo :=
    { codeHash := repeatedHash 1
      codeSigningKeyHash := repeatedHash 0
      productID := 0
      revocationLevel := 0 }
  securitySummary := .INSECURE
  withinAge _ := true

def refusing (info : EnclaveInstanceInfo) : Environment Unit :=
  { welcoming info with connect := fun _ => (none, ()) }

/-- The enclave has another key than the one that the client has been restored with. -/
theorem failedStart_harmless_restoredClient :
    start exampleCharacters (refusing (enclaveWithKey 8)) (restoredClient.recovered, ()) =
        (.error .transport, (restoredClient.recovered, ())) ∧
      StartsRight exampleCharacters 2147483647 restoredClient.created restoredClient.recovered := by
  have threw :
      start exampleCharacters (refusing (enclaveWithKey 8)) (restoredClient.recovered, ()) =
      (.error .transport, (restoredClient.recovered, ())) := rfl
  have new : restoredClient.recovered.state = .new restoredClient.created := rfl
  refine ⟨threw, ((failedStart_harmless_iff restoredClient_reachable new threw).mpr ⟨rfl, ?_⟩).2⟩
  intro info downloaded _ stores
  cases downloaded
  exact absurd stores.1 (by decide)

/-- The client has sent one mail with the topic "t" to the enclave whose key is 9. -/
def interruptedClient : EnclaveClient :=
  restoredClient.recovered.withRestored (enclaveWithKey 9) [⟨[116], 1⟩]

theorem start_refused :
    start exampleCharacters (refusing (enclaveWithKey 9)) (restoredClient.recovered, ()) =
      (.error .transport, (interruptedClient, ())) := by
  rfl

/-- The mail of a later session is encrypted with the key of the enclave before it restarted. -/
theorem oldKey_kept :
    ¬∀ (client : EnclaveClient) (previous : Previous),
      Reachable exampleCharacters 2147483647 client → client.state = .new previous →
      ∀ (σ : Type) (environment : Environment σ) (outside outsideAfter : σ)
        (e : ClientException) (after : EnclaveClient),
        start exampleCharacters environment (client, outside) =
          (.error e, (after, outsideAfter)) →
        after = client ∧ StartsRight exampleCharacters 2147483647 previous after := by
  intro holds
  obtain ⟨-, right⟩ := holds _ _ restoredClient_reachable rfl Unit _ () () _ _ start_refused
  have started : start exampleCharacters (welcoming (enclaveWithKey 8)) (interruptedClient, ()) =
      (.ok (), (setState (.running (enclaveWithKey 8)) interruptedClient, ())) :=
    start_welcomed rfl rfl (by decide) rfl rfl
  obtain ⟨key, -⟩ := (right Unit _ () () _ _ started rfl [116]).1 _ _ (postOffice_cached rfl ())
  exact absurd key (by decide)

end Example

end Conclave.Client.Lifecycle
