import ConclaveFormal.Host.HonestHost
import Mathlib.Data.List.Destutter

/-!
# False rollback alarms

With an honest host a client gets no `EnclaveRollbackException` as long as the
mail handed over and the state IDs the enclave has recorded keep step: each batch
carries mail of exactly the receives that have recorded their ID since the batch
before, no session mail is handed over without a sealed state before a restart,
and clients open mail with the key of the instance that made it.

Commands of a receive that has thrown stay in the transaction of its thread and
are handed over with the next batch.  Then the enclave has not recorded what the
client sees, and the client's next mail is taken for one after a rollback.
-/

set_option autoImplicit false

namespace Conclave.Host

open Conclave.Lib
open Conclave.Mail (EnclaveStateId Curve25519PublicKey StateIdHeader)
open Conclave.Enclave (EnclaveInstance ReceiveEnd ReceiveContext PersistentState)
open Conclave.Client (EnclaveClient CreatedMail ClientError EncryptionKey decryptMail)

/-! ## The condition -/

/-- The mail for a client in a batch, in order. -/
def mailFor (mails : List CreatedMail) (client : Curve25519PublicKey) :
    List MailCommand → List Bytes
  | [] => []
  | .postMail encryptedBytes _ :: rest =>
      if (mailOf mails encryptedBytes).map CreatedMail.recipient = some client then
        encryptedBytes :: mailFor mails client rest
      else mailFor mails client rest
  | .storeSealedState _ :: rest => mailFor mails client rest

/-- The receives some mail was created in. -/
def receivesOf (mails : List CreatedMail) (inbox : List Bytes) : List Nat :=
  inbox.filterMap fun encryptedBytes => (mailOf mails encryptedBytes).bind CreatedMail.receive

/-- The receives that have recorded their ID for a client. -/
def recordedFor (client : Curve25519PublicKey) (recorded : List Recorded) : List Nat :=
  (recorded.filter fun entry => client ∈ entry.clients).map Recorded.receive

/-- A batch, if there is one, has mail of exactly the recorded receives, receive
by receive. -/
def CarriesRecorded (mails : List CreatedMail) (recorded : List Recorded)
    (batch : List MailCommand) : Prop :=
  batch ≠ [] → ∀ client,
    (receivesOf mails (mailFor mails client batch)).destutter (· ≠ ·) =
      recordedFor client recorded

variable {Thread : Type}

/-- What a step must meet for clients not to be alarmed. -/
def KeepsStep (maxPersistentMapSize : Int) (system : System Thread) :
    SystemEvent Thread → Prop
  | .host thread event =>
      CarriesRecorded system.mails system.recorded ((system.transactions thread).batch event)
  | .endReceive thread ending blob =>
      ∀ receiveContext plaintext, system.enclave.currentReceiveContext = some receiveContext →
        (system.enclave.endReceive receiveContext maxPersistentMapSize ending).1 =
          .ok plaintext →
        CarriesRecorded system.mails (system.recordedWith receiveContext ending)
          ((system.transactions thread).batch (.onSealedState blob))
  | .restart => system.unsaved = false
  | .processMail key =>
      ∀ encryptedMail rest mail, (system.clients key).inbox = encryptedMail :: rest →
        mailOf system.mails encryptedMail = some mail →
        mail.sender = (system.clients key).client.encryptionKey
  | _ => True

/-! ## Mail that raises no alarm -/

theorem mailOf_eq_some {mails : List CreatedMail} {encryptedBytes : Bytes} {mail : CreatedMail}
    (found : mailOf mails encryptedBytes = some mail) :
    mail ∈ mails ∧ mail.encryptedMail = encryptedBytes := by
  have same := List.find?_some found
  exact ⟨List.mem_of_find?_eq_some found, by simpa using same⟩

theorem mailOf_append {mails : List CreatedMail} {encryptedBytes : Bytes} {mail : CreatedMail}
    (found : mailOf mails encryptedBytes = some mail) (later : List CreatedMail) :
    mailOf (mails ++ later) encryptedBytes = some mail := by
  rw [mailOf, List.find?_append]
  rw [mailOf] at found
  rw [found]
  rfl

/-- A client that has seen `seen` takes in the mail without an exception and has
seen `final` then. -/
inductive Delivers (mails : List CreatedMail) :
    Option EnclaveStateId → List Bytes → Option EnclaveStateId → Prop where
  | done (seen : Option EnclaveStateId) : Delivers mails seen [] seen
  | plain {seen final : Option EnclaveStateId} {encryptedBytes : Bytes} {rest : List Bytes}
      {mail : CreatedMail} (found : mailOf mails encryptedBytes = some mail)
      (noHeader : mail.privateHeader = none) (later : Delivers mails seen rest final) :
      Delivers mails seen (encryptedBytes :: rest) final
  | session {seen final : Option EnclaveStateId} {encryptedBytes : Bytes} {rest : List Bytes}
      {mail : CreatedMail} {header : StateIdHeader}
      (found : mailOf mails encryptedBytes = some mail)
      (headerEq : mail.privateHeader = some header.write)
      (follows : seen = some header.stateId ∨ seen = header.lastSeenStateId)
      (later : Delivers mails (some header.stateId) rest final) :
      Delivers mails seen (encryptedBytes :: rest) final

theorem Delivers.append {mails : List CreatedMail} {seen middle final : Option EnclaveStateId}
    {inbox batch : List Bytes} (first : Delivers mails seen inbox middle)
    (second : Delivers mails middle batch final) : Delivers mails seen (inbox ++ batch) final := by
  induction first with
  | done => exact second
  | plain found noHeader _ ih => exact .plain found noHeader (ih second)
  | session found headerEq follows _ ih => exact .session found headerEq follows (ih second)

theorem Delivers.more {mails : List CreatedMail} {seen final : Option EnclaveStateId}
    {inbox : List Bytes} (delivers : Delivers mails seen inbox final)
    (later : List CreatedMail) : Delivers (mails ++ later) seen inbox final := by
  induction delivers with
  | done seen => exact .done seen
  | plain found noHeader _ ih => exact .plain (mailOf_append found later) noHeader ih
  | session found headerEq follows _ ih =>
      exact .session (mailOf_append found later) headerEq follows ih

/-! ## Recorded receives -/

/-- The table of last seen IDs after a receive. -/
def Recorded.record (entry : Recorded) (seen : Curve25519PublicKey → Option EnclaveStateId) :
    Curve25519PublicKey → Option EnclaveStateId :=
  fun client => if client ∈ entry.clients then some entry.stateId else seen client

def recordAll (recorded : List Recorded)
    (seen : Curve25519PublicKey → Option EnclaveStateId) :
    Curve25519PublicKey → Option EnclaveStateId :=
  recorded.foldl (fun seen entry => entry.record seen) seen

/-- The mail of a receive has the receive's ID and what was recorded before it. -/
def HeadersOf (mails : List CreatedMail) (receive : Nat) (stateId : EnclaveStateId)
    (seen : Curve25519PublicKey → Option EnclaveStateId) : Prop :=
  ∀ mail ∈ mails, mail.receive = some receive →
    mail.privateHeader = some (StateIdHeader.write ⟨stateId, seen mail.recipient⟩)

def Chained (mails : List CreatedMail) :
    (Curve25519PublicKey → Option EnclaveStateId) → List Recorded → Prop
  | _, [] => True
  | seen, entry :: rest =>
      HeadersOf mails entry.receive entry.stateId seen ∧ Chained mails (entry.record seen) rest

theorem recordedFor_cons_mem {client : Curve25519PublicKey} {entry : Recorded}
    (member : client ∈ entry.clients) (rest : List Recorded) :
    recordedFor client (entry :: rest) = entry.receive :: recordedFor client rest := by
  simp [recordedFor, member]

theorem recordedFor_cons_not_mem {client : Curve25519PublicKey} {entry : Recorded}
    (absent : client ∉ entry.clients) (rest : List Recorded) :
    recordedFor client (entry :: rest) = recordedFor client rest := by
  simp [recordedFor, absent]

theorem recordAll_of_recordedFor_nil {client : Curve25519PublicKey} {recorded : List Recorded}
    (none : recordedFor client recorded = [])
    (seen : Curve25519PublicKey → Option EnclaveStateId) :
    recordAll recorded seen client = seen client := by
  induction recorded generalizing seen with
  | nil => rfl
  | cons entry rest ih =>
      by_cases member : client ∈ entry.clients
      · rw [recordedFor_cons_mem member] at none
        cases none
      · rw [recordedFor_cons_not_mem member] at none
        exact (ih none (entry.record seen)).trans (if_neg member)

/-- The first recorded receive of a client, with what was recorded before it. -/
theorem Chained.advance {mails : List CreatedMail}
    {seen : Curve25519PublicKey → Option EnclaveStateId} {recorded : List Recorded}
    (chained : Chained mails seen recorded) {client : Curve25519PublicKey} {receive : Nat}
    {later : List Nat} (first : recordedFor client recorded = receive :: later) :
    ∃ stateId before rest, before client = seen client ∧
      HeadersOf mails receive stateId before ∧
      (∃ after, after client = some stateId ∧ Chained mails after rest ∧
        recordAll recorded seen client = recordAll rest after client) ∧
      recordedFor client rest = later := by
  induction recorded generalizing seen with
  | nil => cases first
  | cons entry rest ih =>
      by_cases member : client ∈ entry.clients
      · rw [recordedFor_cons_mem member] at first
        cases first
        exact ⟨entry.stateId, seen, rest, rfl, chained.1,
          ⟨entry.record seen, if_pos member, chained.2, rfl⟩, rfl⟩
      · rw [recordedFor_cons_not_mem member] at first
        obtain ⟨stateId, before, tail, beforeEq, headers, after, laterEq⟩ := ih chained.2 first
        exact ⟨stateId, before, tail, beforeEq.trans (if_neg member), headers, after, laterEq⟩

theorem Chained.more {mails : List CreatedMail}
    {seen : Curve25519PublicKey → Option EnclaveStateId} {recorded : List Recorded}
    (chained : Chained mails seen recorded) {mail : CreatedMail}
    (other : ∀ entry ∈ recorded, mail.receive ≠ some entry.receive) :
    Chained (mails ++ [mail]) seen recorded := by
  induction recorded generalizing seen with
  | nil => trivial
  | cons entry rest ih =>
      refine ⟨?_, ih chained.2 fun later member => other later (List.mem_cons_of_mem _ member)⟩
      intro created member createdEq
      rcases List.mem_append.mp member with old | new
      · exact chained.1 created old createdEq
      · rw [List.mem_singleton.mp new] at createdEq
        exact absurd createdEq (other entry List.mem_cons_self)

theorem Chained.concat {mails : List CreatedMail}
    {seen : Curve25519PublicKey → Option EnclaveStateId} {recorded : List Recorded}
    (chained : Chained mails seen recorded) {entry : Recorded}
    (headers : HeadersOf mails entry.receive entry.stateId (recordAll recorded seen)) :
    Chained mails seen (recorded ++ [entry]) := by
  induction recorded generalizing seen with
  | nil => exact ⟨headers, trivial⟩
  | cons first rest ih => exact ⟨chained.1, ih chained.2 headers⟩

theorem recordAll_concat (recorded : List Recorded) (entry : Recorded)
    (seen : Curve25519PublicKey → Option EnclaveStateId) :
    recordAll (recorded ++ [entry]) seen = entry.record (recordAll recorded seen) := by
  rw [recordAll, List.foldl_append]
  rfl

/-! ## A batch that carries what was recorded -/

/-- Known mail for a client; mail without a receive has no header. -/
def Addressed (mails : List CreatedMail) (client : Curve25519PublicKey) (inbox : List Bytes) :
    Prop :=
  ∀ encryptedBytes ∈ inbox, ∃ mail, mailOf mails encryptedBytes = some mail ∧
    mail.recipient = client ∧ (mail.receive = none → mail.privateHeader = none)

theorem receivesOf_cons {mails : List CreatedMail} {encryptedBytes : Bytes} {mail : CreatedMail}
    (found : mailOf mails encryptedBytes = some mail) (rest : List Bytes) :
    receivesOf mails (encryptedBytes :: rest) =
      match mail.receive with
      | none => receivesOf mails rest
      | some receive => receive :: receivesOf mails rest := by
  cases created : mail.receive <;> simp [receivesOf, found, created]

theorem destutter'_head (receive : Nat) (receives : List Nat) :
    ∃ later, receives.destutter' (· ≠ ·) receive = receive :: later := by
  induction receives with
  | nil => exact ⟨[], rfl⟩
  | cons next rest ih =>
      by_cases same : receive = next
      · rw [List.destutter'_cons_neg _ (by simp [same])]
        exact ih
      · rw [List.destutter'_cons_pos _ same]
        exact ⟨_, rfl⟩

/-- The rest of a batch behind a mail of `receive`. -/
theorem delivers_behind {mails : List CreatedMail} {client : Curve25519PublicKey}
    {inbox : List Bytes} (addressed : Addressed mails client inbox) {receive : Nat}
    {stateId : EnclaveStateId} {before : Curve25519PublicKey → Option EnclaveStateId}
    (headers : HeadersOf mails receive stateId before)
    {seen : Curve25519PublicKey → Option EnclaveStateId} (seenEq : seen client = some stateId)
    {recorded : List Recorded} (chained : Chained mails seen recorded)
    (carries : (receivesOf mails inbox).destutter' (· ≠ ·) receive =
      receive :: recordedFor client recorded) :
    Delivers mails (some stateId) inbox (recordAll recorded seen client) := by
  induction inbox generalizing receive stateId before seen recorded with
  | nil =>
      have none : recordedFor client recorded = [] := by
        simpa [receivesOf] using carries.symm
      rw [recordAll_of_recordedFor_nil none, seenEq]
      exact .done _
  | cons encryptedBytes rest ih =>
      obtain ⟨mail, found, recipient, plain⟩ := addressed encryptedBytes List.mem_cons_self
      have restAddressed : Addressed mails client rest := fun other member =>
        addressed other (List.mem_cons_of_mem encryptedBytes member)
      have member := (mailOf_eq_some found).1
      rw [receivesOf_cons found] at carries
      cases created : mail.receive with
      | none =>
          rw [created] at carries
          exact .plain found (plain created) (ih restAddressed headers seenEq chained carries)
      | some number =>
          simp only [created] at carries
          by_cases same : number = receive
          · subst same
            rw [List.destutter'_cons_neg _ (by simp)] at carries
            exact .session found (headers mail member created) (Or.inl rfl)
              (ih restAddressed headers seenEq chained carries)
          · rw [List.destutter'_cons_pos _ (Ne.symm same)] at carries
            have tail := (List.cons.inj carries).2
            obtain ⟨later, laterEq⟩ := destutter'_head number (receivesOf mails rest)
            rw [tail] at laterEq
            obtain ⟨nextId, previous, others, previousEq, nextHeaders,
              ⟨after, afterEq, afterChained, final⟩, othersEq⟩ := chained.advance laterEq
            have header := nextHeaders mail member created
            rw [final]
            refine .session found header (Or.inr ?_) ?_
            · rw [recipient, previousEq, seenEq]
            · apply ih restAddressed nextHeaders afterEq afterChained
              rw [othersEq, ← laterEq]
              exact tail

theorem delivers_recorded {mails : List CreatedMail} {client : Curve25519PublicKey}
    {inbox : List Bytes} (addressed : Addressed mails client inbox)
    {seen : Curve25519PublicKey → Option EnclaveStateId} {recorded : List Recorded}
    (chained : Chained mails seen recorded)
    (carries : (receivesOf mails inbox).destutter (· ≠ ·) = recordedFor client recorded) :
    Delivers mails (seen client) inbox (recordAll recorded seen client) := by
  induction inbox with
  | nil =>
      rw [recordAll_of_recordedFor_nil carries.symm]
      exact .done _
  | cons encryptedBytes rest ih =>
      obtain ⟨mail, found, recipient, plain⟩ := addressed encryptedBytes List.mem_cons_self
      have restAddressed : Addressed mails client rest := fun other member =>
        addressed other (List.mem_cons_of_mem encryptedBytes member)
      rw [receivesOf_cons found] at carries
      cases created : mail.receive with
      | none =>
          rw [created] at carries
          exact .plain found (plain created) (ih restAddressed carries)
      | some number =>
          simp only [created, List.destutter_cons'] at carries
          obtain ⟨later, laterEq⟩ := destutter'_head number (receivesOf mails rest)
          rw [carries] at laterEq
          obtain ⟨nextId, previous, others, previousEq, nextHeaders,
            ⟨after, afterEq, afterChained, final⟩, othersEq⟩ := chained.advance laterEq
          have header := nextHeaders mail (mailOf_eq_some found).1 created
          rw [final]
          refine .session found header (Or.inr ?_) ?_
          · rw [recipient, previousEq]
          · apply delivers_behind restAddressed nextHeaders afterEq afterChained
            rw [othersEq, ← laterEq]
            exact carries

/-! ## Carrying out a batch -/

theorem foldl_actionCommand (batch : List MailCommand) (system : System Thread) :
    ∃ stored, batch.foldl System.actionCommand system =
      { system with
        clients := fun key =>
          { system.clients key with
            inbox := (system.clients key).inbox ++ mailFor system.mails key batch }
        storedState := stored } ∧
      (batch.any System.isSealedState = false → stored = system.storedState) := by
  induction batch generalizing system with
  | nil => exact ⟨system.storedState, by simp [mailFor], fun _ => rfl⟩
  | cons command rest ih =>
      obtain ⟨stored, folded, kept⟩ := ih (system.actionCommand command)
      cases command with
      | storeSealedState sealedState =>
          refine ⟨stored, ?_, by simp [System.isSealedState]⟩
          rw [List.foldl_cons, folded]
          rfl
      | postMail encryptedBytes routingHint =>
          refine ⟨stored, ?_, ?_⟩
          · rw [List.foldl_cons, folded]
            simp only [System.actionCommand, System.mk.injEq, and_true, true_and]
            funext key
            cases found : mailOf system.mails encryptedBytes with
            | none => simp [System.deliver, mailFor, found]
            | some mail =>
                by_cases recipient : mail.recipient = key
                · subst recipient
                  simp [System.deliver, mailFor, found]
                · simp [System.deliver, mailFor, found, recipient,
                    Function.update_of_ne (Ne.symm recipient)]
          · intro none
            exact kept (by simpa [System.isSealedState] using none)

/-! ## The invariant -/

/-- Once a client has taken in its inbox, it has seen what the enclave had
recorded at the last batch. -/
structure HonestClient.InStep (mails : List CreatedMail) (key : Curve25519PublicKey)
    (committed : Option EnclaveStateId) (client : HonestClient) : Prop where
  own : client.client.clientPublicKey = key
  addressed : Addressed mails key client.inbox
  delivers : Delivers mails client.client.lastSeenStateId client.inbox committed
  silent : ∀ mail, Except.error (.enclaveRollback mail) ∉ client.outcomes

theorem HonestClient.InStep.more {mails : List CreatedMail} {key : Curve25519PublicKey}
    {committed : Option EnclaveStateId} {client : HonestClient}
    (inStep : client.InStep mails key committed) (later : List CreatedMail) :
    client.InStep (mails ++ later) key committed := by
  refine ⟨inStep.own, ?_, inStep.delivers.more later, inStep.silent⟩
  intro encryptedBytes member
  obtain ⟨mail, found, rest⟩ := inStep.addressed encryptedBytes member
  exact ⟨mail, mailOf_append found later, rest⟩

namespace System

structure InStep (system : System Thread)
    (committed : Curve25519PublicKey → Option EnclaveStateId) : Prop where
  clients : ∀ key, (system.clients key).InStep system.mails key (committed key)
  chained : Chained system.mails committed system.recorded
  lastSeen : system.enclave.lastSeen = recordAll system.recorded committed
  plain : ∀ mail ∈ system.mails, mail.receive = none → mail.privateHeader = none
  created : ∀ mail ∈ system.mails, ∀ receive, mail.receive = some receive →
    receive < system.receiveCount
  recordedBegun : ∀ entry ∈ system.recorded, entry.receive < system.receiveCount
  current : ∀ receiveContext, system.enclave.currentReceiveContext = some receiveContext →
    HeadersOf system.mails system.receive receiveContext.stateId system.enclave.lastSeen ∧
      system.receive < system.receiveCount ∧
      ∀ entry ∈ system.recorded, entry.receive ≠ system.receive
  posts : ∀ thread, ∀ produced ∈ (system.transactions thread).mailCommands,
    isSealedState produced.command = false

/-- The stored state is one that was sealed.  A restart from it is in step with
the clients unless session mail has been handed over since. -/
structure Saved (system : System Thread)
    (committed : Curve25519PublicKey → Option EnclaveStateId) : Prop where
  known : ∀ sealedState, system.storedState = some sealedState →
    ∃ plaintext, unsealData system.sealedBlobs sealedState = some plaintext
  restarted : system.unsaved = false → system.restarted.lastSeen = committed

end System

/-! ## Mail commands wait in transactions -/

theorem Transaction.closeRecord_mailCommands (transaction : Transaction) (threw : Bool) :
    (transaction.closeRecord threw).mailCommands = transaction.mailCommands := by
  unfold Transaction.closeRecord
  split <;> rfl

/-- A step empties the list, leaves it as it is or adds a `PostMail`. -/
theorem Transaction.step_mailCommands {transaction next : Transaction} {event : Event}
    (stepped : transaction.step event = some next) :
    next.mailCommands = [] ∨ next.mailCommands = transaction.mailCommands ∨
      ∃ number encryptedBytes routingHint, next.mailCommands =
        transaction.mailCommands ++ [⟨number, .postMail encryptedBytes routingHint⟩] := by
  rcases Transaction.step_cases stepped with
    ⟨hasCallback, rfl, _, rfl⟩ | ⟨rest, rfl, _, rfl⟩ |
      ⟨threw, previous, intoEnclave, rest, rfl, _, rfl⟩ | ⟨_, _, rfl⟩
  · right; left
    unfold Transaction.callIntoEnclave
    simp only
    split <;> rfl
  · exact Or.inr (Or.inl rfl)
  · simp only [Transaction.bodyEnds, Transaction.closeRecord_mailCommands]
    split
    · exact Or.inl rfl
    · exact Or.inr (Or.inl rfl)
  · unfold Transaction.handleCall
    cases transaction.callState with
    | ready => exact Or.inr (Or.inl rfl)
    | response bytes => exact Or.inr (Or.inl rfl)
    | intoEnclave depth hasCallback =>
        cases event with
        | onMail encryptedBytes routingHint => exact Or.inr (Or.inr ⟨_, _, _, rfl⟩)
        | onUntrustedHost =>
            right; left
            simp only
            split <;> rfl
        | onSealedState sealedState => exact Or.inl rfl
        | _ => exact Or.inr (Or.inl rfl)

theorem Transaction.step_posts {transaction next : Transaction} {event : Event}
    (stepped : transaction.step event = some next)
    (posts : ∀ produced ∈ transaction.mailCommands,
      System.isSealedState produced.command = false) :
    ∀ produced ∈ next.mailCommands, System.isSealedState produced.command = false := by
  intro produced member
  rcases Transaction.step_mailCommands stepped with
    empty | same | ⟨number, encryptedBytes, routingHint, added⟩
  · rw [empty] at member
    cases member
  · rw [same] at member
    exact posts produced member
  · rw [added] at member
    rcases List.mem_append.mp member with old | new
    · exact posts produced old
    · rw [List.mem_singleton.mp new]
      rfl

theorem Transaction.batch_posts {transaction : Transaction} {event : Event}
    (host : System.isHostEvent event = true)
    (posts : ∀ produced ∈ transaction.mailCommands,
      System.isSealedState produced.command = false) :
    (transaction.batch event).any System.isSealedState = false := by
  have waiting : (transaction.mailCommands.map Produced.command).any System.isSealedState =
      false := by
    simpa using posts
  cases event with
  | onSealedState sealedState => cases host
  | bodyEnds threw =>
      simp only [Transaction.batch]
      split
      · split
        · exact waiting
        · rfl
      · rfl
  | _ => rfl

namespace System

/-! ## Batches keep the clients in step -/

theorem mailFor_addressed {mails : List CreatedMail}
    (plain : ∀ mail ∈ mails, mail.receive = none → mail.privateHeader = none)
    (key : Curve25519PublicKey) (batch : List MailCommand) :
    Addressed mails key (mailFor mails key batch) := by
  induction batch with
  | nil =>
      intro encryptedBytes member
      cases member
  | cons command rest ih =>
      cases command with
      | storeSealedState sealedState => exact ih
      | postMail encryptedBytes routingHint =>
          rw [mailFor]
          split
          · rename_i recipient
            obtain ⟨mail, found, recipientEq⟩ := Option.map_eq_some_iff.mp recipient
            intro other member
            rcases List.mem_cons.mp member with rfl | member
            · exact ⟨mail, found, recipientEq, plain mail (mailOf_eq_some found).1⟩
            · exact ih other member
          · exact ih

theorem InStep.deliver {system : System Thread}
    {committed : Curve25519PublicKey → Option EnclaveStateId}
    (inStep : system.InStep committed) {batch : List MailCommand} (nonempty : batch ≠ [])
    (carries : CarriesRecorded system.mails system.recorded batch) (key : Curve25519PublicKey) :
    HonestClient.InStep system.mails key (recordAll system.recorded committed key)
      { system.clients key with
        inbox := (system.clients key).inbox ++ mailFor system.mails key batch } := by
  have client := inStep.clients key
  have added := mailFor_addressed inStep.plain key batch
  refine ⟨client.own, ?_, ?_, client.silent⟩
  · intro encryptedBytes member
    rcases List.mem_append.mp member with old | new
    · exact client.addressed encryptedBytes old
    · exact added encryptedBytes new
  · exact client.delivers.append (delivers_recorded added inStep.chained (carries nonempty key))

/-- After a batch that carries what was recorded, nothing recorded is left to
be handed over. -/
theorem InStep.action {system : System Thread}
    {committed : Curve25519PublicKey → Option EnclaveStateId}
    (inStep : system.InStep committed) {batch : List MailCommand} (nonempty : batch ≠ [])
    (carries : CarriesRecorded system.mails system.recorded batch) :
    (system.action batch).InStep (recordAll system.recorded committed) := by
  obtain ⟨stored, folded, _⟩ := foldl_actionCommand batch system
  rw [System.action, if_neg nonempty, folded]
  refine
    { inStep with
      clients := inStep.deliver nonempty carries
      chained := trivial
      lastSeen := inStep.lastSeen
      recordedBegun := ?_
      current := ?_ }
  · intro entry member
    cases member
  · intro receiveContext receiving
    obtain ⟨headers, begun, _⟩ := inStep.current receiveContext receiving
    refine ⟨headers, begun, ?_⟩
    intro entry member
    cases member

/-! ## Stored states -/

theorem receivesOf_mailFor_nil {mails : List CreatedMail} {batch : List MailCommand}
    (noSession : batch.any (isSessionMail mails) = false) (key : Curve25519PublicKey) :
    receivesOf mails (mailFor mails key batch) = [] := by
  induction batch with
  | nil => rfl
  | cons command rest ih =>
      rw [List.any_cons, Bool.or_eq_false_iff] at noSession
      cases command with
      | storeSealedState sealedState => exact ih noSession.2
      | postMail encryptedBytes routingHint =>
          rw [mailFor]
          split
          · have unsent : (mailOf mails encryptedBytes).bind CreatedMail.receive = none := by
              simpa [isSessionMail] using noSession.1
            have later := ih noSession.2
            rw [receivesOf] at later ⊢
            rw [List.filterMap_cons, unsent]
            exact later
          · exact ih noSession.2

theorem Saved.actionPosts {system : System Thread}
    {committed : Curve25519PublicKey → Option EnclaveStateId} (saved : system.Saved committed)
    {batch : List MailCommand} (nonempty : batch ≠ [])
    (carries : CarriesRecorded system.mails system.recorded batch)
    (posts : batch.any isSealedState = false) :
    (system.action batch).Saved (recordAll system.recorded committed) := by
  obtain ⟨stored, folded, kept⟩ := foldl_actionCommand batch system
  obtain rfl := kept posts
  rw [System.action, if_neg nonempty, folded]
  refine ⟨saved.known, ?_⟩
  intro clean
  simp only [posts, Bool.not_false, Bool.true_and, Bool.or_eq_false_iff] at clean
  have unchanged : recordAll system.recorded committed = committed := by
    funext key
    apply recordAll_of_recordedFor_nil
    rw [← carries nonempty key, receivesOf_mailFor_nil clean.2]
    rfl
  rw [unchanged]
  exact saved.restarted clean.1

theorem Saved.actionSealed {system : System Thread}
    {committed : Curve25519PublicKey → Option EnclaveStateId} {posts : List MailCommand}
    {blob plaintext : Bytes} (unsealed : unsealData system.sealedBlobs blob = some plaintext)
    (same : (EnclaveInstance.start (some plaintext)).lastSeen = committed) :
    (system.action (posts ++ [.storeSealedState blob])).Saved committed := by
  obtain ⟨stored, folded, _⟩ := foldl_actionCommand posts system
  have nonempty : posts ++ [MailCommand.storeSealedState blob] ≠ [] := by simp
  rw [System.action, if_neg nonempty, List.foldl_append, folded]
  refine ⟨?_, ?_⟩
  · intro sealedState storedEq
    cases storedEq
    exact ⟨plaintext, unsealed⟩
  · intro _
    simp only [System.restarted, actionCommand, List.foldl_cons, List.foldl_nil,
      Option.bind_some, unsealed]
    exact same

theorem unsealData_append {sealedBlobs : List SealedBlob} {sealedState plaintext : Bytes}
    (unsealed : unsealData sealedBlobs sealedState = some plaintext) (later : List SealedBlob) :
    unsealData (sealedBlobs ++ later) sealedState = some plaintext := by
  obtain ⟨stored, found, rfl⟩ := Option.map_eq_some_iff.mp unsealed
  rw [unsealData, List.find?_append, found]
  rfl

theorem unsealData_last {sealedBlobs : List SealedBlob} {stored : SealedBlob}
    (fresh : ∀ earlier ∈ sealedBlobs, earlier.blob ≠ stored.blob) :
    unsealData (sealedBlobs ++ [stored]) stored.blob = some stored.plaintext := by
  have absent : sealedBlobs.find? (fun earlier => earlier.blob == stored.blob) = none := by
    rw [List.find?_eq_none]
    intro earlier member
    simpa using fresh earlier member
  simp [unsealData, List.find?_append, absent]

theorem Saved.sealed {system : System Thread}
    {committed : Curve25519PublicKey → Option EnclaveStateId} (saved : system.Saved committed)
    (stored : SealedBlob) :
    Saved { system with sealedBlobs := system.sealedBlobs ++ [stored] } committed := by
  refine ⟨?_, ?_⟩
  · intro sealedState storedEq
    obtain ⟨plaintext, unsealed⟩ := saved.known sealedState storedEq
    exact ⟨plaintext, unsealData_append unsealed [stored]⟩
  · intro clean
    rw [← saved.restarted clean]
    cases storedEq : system.storedState with
    | none => simp [System.restarted, storedEq]
    | some sealedState =>
        obtain ⟨plaintext, unsealed⟩ := saved.known sealedState storedEq
        simp [System.restarted, storedEq, unsealed, unsealData_append unsealed [stored]]

/-! ## Messages and calls -/

variable [DecidableEq Thread]

theorem InStep.transaction {system : System Thread}
    {committed : Curve25519PublicKey → Option EnclaveStateId} (inStep : system.InStep committed)
    {thread : Thread} {event : Event} {next : Transaction}
    (stepped : (system.transactions thread).step event = some next) :
    InStep { system with transactions := Function.update system.transactions thread next }
      committed := by
  refine { inStep with posts := ?_ }
  intro other
  by_cases same : other = thread
  · subst same
    simp only [Function.update_self]
    exact Transaction.step_posts stepped (inStep.posts other)
  · simp only [Function.update_of_ne same]
    exact inStep.posts other

theorem hostStep_eq_some {system next : System Thread} {thread : Thread} {event : Event}
    (stepped : system.hostStep thread event = some next) :
    ∃ transaction, (system.transactions thread).step event = some transaction ∧
      next = action
        { system with transactions := Function.update system.transactions thread transaction }
        ((system.transactions thread).batch event) := by
  obtain ⟨transaction, transactionEq, rfl⟩ := Option.map_eq_some_iff.mp stepped
  exact ⟨transaction, transactionEq, rfl⟩

theorem InStep.host {system next : System Thread}
    {committed : Curve25519PublicKey → Option EnclaveStateId} (inStep : system.InStep committed)
    (saved : system.Saved committed) {thread : Thread} {event : Event}
    (host : isHostEvent event = true)
    (carries : CarriesRecorded system.mails system.recorded
      ((system.transactions thread).batch event))
    (stepped : system.hostStep thread event = some next) :
    ∃ committed, next.InStep committed ∧ next.Saved committed := by
  obtain ⟨transaction, transactionEq, rfl⟩ := hostStep_eq_some stepped
  have moved := inStep.transaction transactionEq
  have kept : Saved { system with
      transactions := Function.update system.transactions thread transaction } committed :=
    ⟨saved.known, saved.restarted⟩
  by_cases nonempty : (system.transactions thread).batch event = []
  · rw [System.action, if_pos nonempty]
    exact ⟨committed, moved, kept⟩
  · exact ⟨_, moved.action nonempty carries,
      kept.actionPosts nonempty carries (Transaction.batch_posts host (inStep.posts thread))⟩

theorem InStep.postMail {system next : System Thread}
    {committed : Curve25519PublicKey → Option EnclaveStateId} (inStep : system.InStep committed)
    (saved : system.Saved committed) {thread : Thread} {encryptedBytes : Bytes}
    {routingHint : Option String}
    (stepped : system.postMail thread encryptedBytes routingHint = some next) :
    next.InStep committed ∧ next.Saved committed := by
  obtain ⟨posted, postedEq, rfl⟩ := Option.map_eq_some_iff.mp stepped
  obtain ⟨transaction, transactionEq, rfl⟩ := hostStep_eq_some postedEq
  have moved := inStep.transaction transactionEq
  have unfired : (system.transactions thread).batch (.onMail encryptedBytes routingHint) = [] :=
    rfl
  rw [System.action, if_pos unfired]
  split
  · refine ⟨{ moved with current := ?_ }, ⟨saved.known, saved.restarted⟩⟩
    intro receiveContext receiving
    obtain ⟨before, beforeEq, rfl⟩ := Option.map_eq_some_iff.mp receiving
    exact moved.current before beforeEq
  · exact ⟨moved, ⟨saved.known, saved.restarted⟩⟩

/-! ## Receives -/

omit [DecidableEq Thread] in
theorem InStep.beginReceive {system : System Thread}
    {committed : Curve25519PublicKey → Option EnclaveStateId} (inStep : system.InStep committed)
    (thread : Thread) (stateId : EnclaveStateId) :
    (system.beginReceive thread stateId).InStep committed := by
  unfold System.beginReceive
  split
  · exact inStep
  · rename_i enclave began
    obtain ⟨_, rfl⟩ := EnclaveInstance.beginReceive_eq_some began
    refine { inStep with lastSeen := inStep.lastSeen, created := ?_, recordedBegun := ?_,
                         current := ?_ }
    · intro mail member receive created
      exact Nat.lt_succ_of_lt (inStep.created mail member receive created)
    · intro entry member
      exact Nat.lt_succ_of_lt (inStep.recordedBegun entry member)
    · -- no mail and no recorded receive has the new number yet
      intro receiveContext receiving
      cases receiving
      refine ⟨?_, Nat.lt_succ_self _, ?_⟩
      · intro mail member created
        exact absurd (inStep.created mail member _ created) (Nat.lt_irrefl _)
      · intro entry member
        exact Nat.ne_of_lt (inStep.recordedBegun entry member)

omit [DecidableEq Thread] in
/-- A mail of the current receive, or one without a receive. -/
theorem InStep.addMail {system : System Thread}
    {committed : Curve25519PublicKey → Option EnclaveStateId} (inStep : system.InStep committed)
    {mail : CreatedMail} (plain : mail.receive = none → mail.privateHeader = none)
    (current : ∀ receive, mail.receive = some receive → ∃ receiveContext,
      system.enclave.currentReceiveContext = some receiveContext ∧ receive = system.receive ∧
      mail.privateHeader = some (StateIdHeader.write
        ⟨receiveContext.stateId, system.enclave.lastSeen mail.recipient⟩)) :
    InStep { system with mails := system.mails ++ [mail] } committed := by
  refine { inStep with
    clients := fun key => (inStep.clients key).more [mail]
    chained := inStep.chained.more ?_
    plain := ?_
    created := ?_
    current := ?_ }
  · intro entry member createdEq
    obtain ⟨receiveContext, receiving, same, _⟩ := current _ createdEq
    exact (inStep.current receiveContext receiving).2.2 entry member same
  · intro other member
    rcases List.mem_append.mp member with old | new
    · exact inStep.plain other old
    · rw [List.mem_singleton.mp new]
      exact plain
  · intro other member receive created
    rcases List.mem_append.mp member with old | new
    · exact inStep.created other old receive created
    · rw [List.mem_singleton.mp new] at created
      obtain ⟨receiveContext, receiving, rfl, _⟩ := current receive created
      exact (inStep.current receiveContext receiving).2.1
  · intro receiveContext receiving
    obtain ⟨headers, begun⟩ := inStep.current receiveContext receiving
    refine ⟨?_, begun⟩
    intro other member created
    rcases List.mem_append.mp member with old | new
    · exact headers other old created
    · rw [List.mem_singleton.mp new] at created ⊢
      obtain ⟨same, sameEq, _, header⟩ := current _ created
      rw [receiving] at sameEq
      cases sameEq
      exact header

omit [DecidableEq Thread] in
theorem InStep.createMail {system : System Thread}
    {committed : Curve25519PublicKey → Option EnclaveStateId} (inStep : system.InStep committed)
    (recipient : Curve25519PublicKey) (encryptedMail : Option Bytes) :
    (system.createMail recipient encryptedMail).InStep committed := by
  unfold System.createMail
  cases receiving : system.enclave.currentReceiveContext with
  | none =>
      rw [EnclaveInstance.privateHeader_idle receiving]
      cases encryptedMail with
      | none => exact inStep
      | some encryptedMail =>
          refine inStep.addMail (fun _ => rfl) ?_
          intro receive created
          cases created
  | some receiveContext =>
      rw [EnclaveInstance.privateHeader_receiving receiving]
      have pending : InStep { system with
          enclave := ⟨system.enclave.state, some ⟨receiveContext.stateId,
            receiveContext.outboundClients.insert recipient,
            wrap32 (receiveContext.pendingPostMails + 1)⟩⟩ } committed := by
        refine { inStep with lastSeen := inStep.lastSeen, current := ?_ }
        intro other otherEq
        cases otherEq
        exact inStep.current receiveContext receiving
      cases encryptedMail with
      | none => exact pending
      | some encryptedMail =>
          refine pending.addMail (by intro created; cases created) ?_
          intro receive created
          cases created
          exact ⟨_, rfl, rfl, rfl⟩

omit [DecidableEq Thread] in
/-- A receive that gets as far as sealing becomes a recorded one. -/
theorem InStep.recordReceive {system : System Thread}
    {committed : Curve25519PublicKey → Option EnclaveStateId} (inStep : system.InStep committed)
    {receiveContext : ReceiveContext}
    (receiving : system.enclave.currentReceiveContext = some receiveContext) :
    InStep { system with
      enclave := ⟨system.enclave.updateLastSeenStateIds receiveContext, none⟩
      receiver := none
      recorded := system.recorded ++
        [⟨system.receive, receiveContext.stateId, receiveContext.outboundClients⟩] }
      committed := by
  obtain ⟨headers, begun, _⟩ := inStep.current receiveContext receiving
  refine { inStep with
    chained := inStep.chained.concat ?_
    lastSeen := ?_
    recordedBegun := ?_
    current := ?_ }
  · rw [← inStep.lastSeen]
    exact headers
  · rw [recordAll_concat, ← inStep.lastSeen]
    funext client
    exact system.enclave.lookup_updateLastSeenStateIds receiveContext client
  · intro entry member
    rcases List.mem_append.mp member with old | new
    · exact inStep.recordedBegun entry old
    · rw [List.mem_singleton.mp new]
      exact begun
  · intro other otherEq
    cases otherEq

theorem batch_onSealedState (transaction : Transaction) (blob : Bytes) :
    transaction.batch (.onSealedState blob) =
        transaction.mailCommands.map Produced.command ++ [.storeSealedState blob] ∨
      transaction.batch (.onSealedState blob) = [] := by
  unfold Transaction.batch
  cases transaction.callState with
  | intoEnclave depth hasCallback => exact Or.inl rfl
  | ready => exact Or.inr rfl
  | response bytes => exact Or.inr rfl

theorem InStep.endReceive {system next : System Thread}
    {committed : Curve25519PublicKey → Option EnclaveStateId} (inStep : system.InStep committed)
    (saved : system.Saved committed) {maxPersistentMapSize : Int} {thread : Thread}
    {receiveContext : ReceiveContext}
    (receiving : system.enclave.currentReceiveContext = some receiveContext)
    {ending : ReceiveEnd} {blob : Bytes}
    (fresh : ∀ stored ∈ system.sealedBlobs, stored.blob ≠ blob)
    (keeps : KeepsStep maxPersistentMapSize system (.endReceive thread ending blob))
    (stepped : system.endReceive maxPersistentMapSize thread receiveContext ending blob =
      some next) :
    ∃ committed, next.InStep committed ∧ next.Saved committed := by
  cases reaches : EnclaveInstance.reachesSealing receiveContext ending with
  | false =>
      have recordedEq : system.recordedWith receiveContext ending = system.recorded := by
        simp [recordedWith, reaches]
      obtain ⟨error, ended⟩ :=
        EnclaveInstance.endReceive_stopped system.enclave maxPersistentMapSize reaches
      simp only [System.endReceive, ended, recordedEq] at stepped
      cases stepped
      refine ⟨committed, { inStep with lastSeen := inStep.lastSeen, current := ?_ },
        ⟨saved.known, saved.restarted⟩⟩
      intro other otherEq
      cases otherEq
  | true =>
      have recordedEq : system.recordedWith receiveContext ending = system.recorded ++
          [⟨system.receive, receiveContext.stateId, receiveContext.outboundClients⟩] := by
        simp [recordedWith, reaches]
      obtain ⟨result, now, ended, serialised⟩ :=
        EnclaveInstance.endReceive_sealing system.enclave maxPersistentMapSize reaches
      have recordedStep := inStep.recordReceive receiving
      simp only [System.endReceive, ended, recordedEq] at stepped
      cases result with
      | error e =>
          cases stepped
          exact ⟨committed, recordedStep, ⟨saved.known, saved.restarted⟩⟩
      | ok plaintext =>
          obtain ⟨transaction, transactionEq, rfl⟩ := hostStep_eq_some stepped
          have carries := keeps receiveContext plaintext receiving (by rw [ended])
          rw [recordedEq] at carries
          have sealedStep : InStep { system with
              enclave := ⟨system.enclave.updateLastSeenStateIds receiveContext, none⟩
              receiver := none
              recorded := system.recorded ++
                [⟨system.receive, receiveContext.stateId, receiveContext.outboundClients⟩]
              sealedBlobs := system.sealedBlobs ++ [⟨blob, plaintext⟩] } committed :=
            { recordedStep with }
          have moved := sealedStep.transaction transactionEq
          have restored : (EnclaveInstance.start (some plaintext)).lastSeen =
              recordAll (system.recorded ++
                [⟨system.receive, receiveContext.stateId, receiveContext.outboundClients⟩])
                committed :=
            (funext (EnclaveInstance.lastSeen_start (serialised plaintext rfl))).trans
              recordedStep.lastSeen
          rcases batch_onSealedState (system.transactions thread) blob with fired | unfired
          · rw [fired] at carries ⊢
            exact ⟨_, moved.action (by simp) carries,
              Saved.actionSealed (unsealData_last fresh) restored⟩
          · rw [unfired]
            have kept := saved.sealed ⟨blob, plaintext⟩
            exact ⟨committed, moved, ⟨kept.known, kept.restarted⟩⟩

/-! ## Restarts and clients -/

omit [DecidableEq Thread] in
theorem InStep.restart {system : System Thread}
    {committed : Curve25519PublicKey → Option EnclaveStateId} (inStep : system.InStep committed)
    (saved : system.Saved committed) (clean : system.unsaved = false) :
    system.restart.InStep committed ∧ system.restart.Saved committed := by
  refine ⟨{ inStep with
    chained := trivial
    lastSeen := saved.restarted clean
    recordedBegun := ?_
    current := ?_
    posts := ?_ }, ⟨saved.known, saved.restarted⟩⟩
  · intro entry member
    cases member
  · intro receiveContext receiving
    simp only [System.restart, System.restarted, EnclaveInstance.start] at receiving
    split at receiving <;> cases receiving
  · intro thread produced member
    cases member

omit [DecidableEq Thread] in
theorem InStep.setClient {system : System Thread}
    {committed : Curve25519PublicKey → Option EnclaveStateId} (inStep : system.InStep committed)
    (saved : system.Saved committed) {key : Curve25519PublicKey} {client : HonestClient}
    (next : client.InStep system.mails key (committed key)) :
    (system.setClient key client).InStep committed ∧
      (system.setClient key client).Saved committed := by
  refine ⟨{ inStep with clients := ?_ }, ⟨saved.known, saved.restarted⟩⟩
  intro other
  by_cases same : other = key
  · subst same
    simp only [System.setClient, Function.update_self]
    exact next
  · simp only [System.setClient, Function.update_of_ne same]
    exact inStep.clients other

end System

theorem decryptMail_own {mails : List CreatedMail} {encryptedMail : Bytes} {mail : CreatedMail}
    (found : mailOf mails encryptedMail = some mail) :
    decryptMail mails encryptedMail mail.recipient mail.sender = some mail := by
  rw [mailOf] at found
  simp [decryptMail, found]

/-- A client takes in the next mail, opened with the right key. -/
theorem HonestClient.InStep.processMail {mails : List CreatedMail} {key : Curve25519PublicKey}
    {committed : Option EnclaveStateId} {client : HonestClient}
    (inStep : client.InStep mails key committed) {encryptedMail : Bytes} {rest : List Bytes}
    (inbox : client.inbox = encryptedMail :: rest)
    (sender : ∀ mail, mailOf mails encryptedMail = some mail →
      mail.sender = client.client.encryptionKey) :
    HonestClient.InStep mails key committed
      ⟨(EnclaveClient.processMail mails encryptedMail client.client).2, rest,
        client.outcomes ++ [(EnclaveClient.processMail mails encryptedMail client.client).1]⟩ := by
  have delivers := inStep.delivers
  rw [inbox] at delivers
  have addressed : Addressed mails key rest := fun other member =>
    inStep.addressed other (inbox ▸ List.mem_cons_of_mem encryptedMail member)
  obtain ⟨mail, found, recipient, _⟩ :=
    inStep.addressed encryptedMail (inbox ▸ List.mem_cons_self)
  have opened : decryptMail mails encryptedMail client.client.clientPublicKey
      client.client.encryptionKey = some mail := by
    rw [inStep.own, ← recipient, ← sender mail found]
    exact decryptMail_own found
  have silentWith : ∀ other, Except.error (.enclaveRollback other) ∉
      client.outcomes ++ [Except.ok mail] := by
    intro other member
    rcases List.mem_append.mp member with old | new
    · exact inStep.silent other old
    · cases List.mem_singleton.mp new
  cases delivers with
  | plain foundAgain noHeader later =>
      rw [found] at foundAgain
      cases foundAgain
      rw [EnclaveClient.processMail_plain opened noHeader]
      exact ⟨inStep.own, addressed, later, silentWith⟩
  | session foundAgain headerEq follows later =>
      rw [found] at foundAgain
      cases foundAgain
      rcases EnclaveClient.processMail_cases opened headerEq with
        ⟨same, processed⟩ | ⟨_, _, processed⟩ | ⟨different, unexpected, _⟩
      · rw [processed]
        rw [← same] at later
        exact ⟨inStep.own, addressed, later, silentWith⟩
      · rw [processed]
        exact ⟨inStep.own, addressed, later, silentWith⟩
      · rcases follows with same | expected
        · exact absurd same different
        · exact absurd expected unexpected

/-! ## Runs -/

def System.Quiet (system : System Thread) : Prop :=
  ∃ committed, system.InStep committed ∧ system.Saved committed

theorem System.quiet_initial : (System.initial : System Thread).Quiet := by
  refine ⟨fun _ => none, ⟨?_, trivial, rfl, ?_, ?_, ?_, ?_, ?_⟩, ?_, ?_⟩
  · intro key
    refine ⟨rfl, ?_, .done none, ?_⟩
    · intro encryptedBytes member
      cases member
    · intro mail member
      cases member
  · intro mail member
    cases member
  · intro mail member
    cases member
  · intro entry member
    cases member
  · intro receiveContext receiving
    cases receiving
  · intro thread produced member
    cases member
  · intro sealedState stored
    cases stored
  · intro _
    rfl

section Runs

variable [DecidableEq Thread]

theorem System.Quiet.step {maxPersistentMapSize : Int} {system next : System Thread}
    {event : SystemEvent Thread} (quiet : system.Quiet)
    (keeps : KeepsStep maxPersistentMapSize system event)
    (stepped : system.step maxPersistentMapSize event = some next) : next.Quiet := by
  obtain ⟨committed, inStep, saved⟩ := quiet
  cases event with
  | host thread event =>
      simp only [System.step] at stepped
      split at stepped
      · rename_i host
        exact inStep.host saved host keeps stepped
      · cases stepped
  | beginReceive thread stateId =>
      simp only [System.step] at stepped
      split at stepped
      · cases stepped
        refine ⟨committed, inStep.beginReceive thread stateId, ?_⟩
        unfold System.beginReceive
        split
        · exact saved
        · exact ⟨saved.known, saved.restarted⟩
      · cases stepped
  | setPersistentMap thread map =>
      simp only [System.step] at stepped
      split at stepped
      · cases stepped
        exact ⟨committed, { inStep with lastSeen := inStep.lastSeen, current := inStep.current },
          ⟨saved.known, saved.restarted⟩⟩
      · cases stepped
  | createMail thread recipient encryptedMail =>
      simp only [System.step] at stepped
      split at stepped
      · cases stepped
        refine ⟨committed, inStep.createMail recipient encryptedMail, ?_⟩
        unfold System.createMail
        cases encryptedMail with
        | none => exact ⟨saved.known, saved.restarted⟩
        | some encryptedMail => exact ⟨saved.known, saved.restarted⟩
      · cases stepped
  | postMail thread encryptedBytes routingHint =>
      simp only [System.step] at stepped
      split at stepped
      · exact ⟨committed, inStep.postMail saved stepped⟩
      · cases stepped
  | endReceive thread ending blob =>
      simp only [System.step] at stepped
      split at stepped
      · rename_i enabled
        obtain ⟨receiveContext, receiving, stepped⟩ := Option.bind_eq_some_iff.mp stepped
        exact inStep.endReceive saved receiving enabled.2 keeps stepped
      · cases stepped
  | restart =>
      cases stepped
      exact ⟨committed, inStep.restart saved keeps⟩
  | updateEnclaveInstanceInfo key =>
      cases stepped
      have client := inStep.clients key
      exact ⟨committed, inStep.setClient saved
        ⟨client.own, client.addressed, client.delivers, client.silent⟩⟩
  | processMail key =>
      simp only [System.step] at stepped
      split at stepped
      · cases stepped
      · rename_i encryptedMail rest inbox
        cases stepped
        exact ⟨committed, inStep.setClient saved ((inStep.clients key).processMail inbox
          fun mail found => keeps encryptedMail rest mail inbox found)⟩

/-- In every run whose steps keep the mail and the recorded state IDs in step, no
client gets an `EnclaveRollbackException`. -/
theorem noFalseAlarms {maxPersistentMapSize : Int} {events : List (SystemEvent Thread)}
    {system : System Thread}
    (ran : run (System.step maxPersistentMapSize) System.initial events = some system)
    (keeps : Meets (System.step maxPersistentMapSize) (KeepsStep maxPersistentMapSize)
      System.initial events) (key : Curve25519PublicKey) (mail : CreatedMail) :
    Except.error (.enclaveRollback mail) ∉ (system.clients key).outcomes := by
  have quiet : system.Quiet := run_invariant_of_meets
    (fun quiet keeps stepped => quiet.step keeps stepped) System.quiet_initial keeps ran
  obtain ⟨committed, inStep, _⟩ := quiet
  exact (inStep.clients key).silent mail

end Runs

theorem clientKey_size : (List.replicate 32 (7 : UInt8)).length = 32 := rfl

theorem firstStateId_size : (List.replicate 16 (1 : UInt8)).length = 16 := rfl

theorem secondStateId_size : (List.replicate 16 (2 : UInt8)).length = 16 := rfl

def clientKey : Curve25519PublicKey := ⟨List.replicate 32 7, clientKey_size⟩

def firstStateId : EnclaveStateId := ⟨List.replicate 16 1, firstStateId_size⟩

def secondStateId : EnclaveStateId := ⟨List.replicate 16 2, secondStateId_size⟩

/-- A receive that posts one mail to the client, up to its end. -/
def postingReceive (stateId : EnclaveStateId) (encryptedMail : Bytes) :
    List (SystemEvent Unit) :=
  [.host () (.callIntoEnclave false), .beginReceive () stateId,
    .createMail () clientKey (some encryptedMail), .postMail () encryptedMail none]

def returnedNow : ReceiveEnd := .returned Conclave.Enclave.Instant.EPOCH false

def answeredRun : List (SystemEvent Unit) :=
  postingReceive firstStateId [1] ++ [.endReceive () returnedNow [9], .processMail clientKey]

theorem noFalseAlarms_answeredRun :
    ∃ system, run (System.step 1000) System.initial answeredRun = some system ∧
      (system.clients clientKey).outcomes.length = 1 ∧
      ∀ mail, Except.error (.enclaveRollback mail) ∉ (system.clients clientKey).outcomes := by
  have outcome : (run (System.step 1000) System.initial answeredRun).map (fun system =>
      (system.clients clientKey).outcomes.length) = some 1 := by
    decide +kernel
  obtain ⟨system, ran, handled⟩ := Option.map_eq_some_iff.mp outcome
  refine ⟨system, ran, handled, ?_⟩
  intro mail
  refine noFalseAlarms ran ?_ clientKey mail
  refine .cons (fun fired => absurd rfl fired) rfl ?_
  refine .cons trivial rfl (.cons trivial rfl (.cons trivial rfl ?_))
  refine .cons ?_ rfl (.cons ?_ rfl trivial)
  · intro receiveContext plaintext receiving _ _ client
    cases (show some _ = some receiveContext from receiving)
    by_cases own : client = clientKey
    · subst own
      decide +kernel
    · have other : mailFor [⟨[1], 0, clientKey, some (StateIdHeader.write ⟨firstStateId, none⟩),
          some 0⟩] client [.postMail [1] none, .storeSealedState [9]] = [] := by
        simp [mailFor, mailOf, Ne.symm own]
      have noClient : recordedFor client [⟨0, firstStateId, [clientKey]⟩] = [] := by
        simp [recordedFor, own]
      exact (congrArg (fun inbox => (receivesOf _ inbox).destutter (· ≠ ·)) other).trans
        noClient.symm
  · intro encryptedMail rest mail inbox found
    cases (show [[1]] = encryptedMail :: rest from inbox)
    cases (show some _ = some mail from found)
    rfl

/-- The first receive throws after it has posted its mail; the second is in order. -/
def throwingRun : List (SystemEvent Unit) :=
  postingReceive firstStateId [1] ++
    [.endReceive () .threw [8], .host () (.bodyEnds true)] ++
    postingReceive secondStateId [2] ++
    [.endReceive () returnedNow [9], .host () .callbackEnds, .host () (.bodyEnds false),
      .processMail clientKey, .processMail clientKey]

/-- The mail that raised the alarm. -/
def alarmOf : Except ClientError CreatedMail → Option Bytes
  | .error (.enclaveRollback mail) => some mail.encryptedMail
  | _ => none

theorem alarmOf_eq_some {outcome : Except ClientError CreatedMail} {encryptedMail : Bytes}
    (alarm : alarmOf outcome = some encryptedMail) :
    ∃ mail, outcome = .error (.enclaveRollback mail) := by
  unfold alarmOf at alarm
  split at alarm
  · exact ⟨_, rfl⟩
  · cases alarm

theorem throwingRun_alarms :
    ∃ system mail, run (System.step 1000) System.initial throwingRun = some system ∧
      Except.error (.enclaveRollback mail) ∈ (system.clients clientKey).outcomes := by
  have outcome : (run (System.step 1000) System.initial throwingRun).map (fun system =>
      (system.clients clientKey).outcomes.filterMap alarmOf) = some [[2]] := by
    decide +kernel
  obtain ⟨system, ran, alarms⟩ := Option.map_eq_some_iff.mp outcome
  have alarmed : [2] ∈ (system.clients clientKey).outcomes.filterMap alarmOf := by
    rw [alarms]
    exact List.mem_singleton_self _
  obtain ⟨result, member, alarm⟩ := List.mem_filterMap.mp alarmed
  obtain ⟨mail, rfl⟩ := alarmOf_eq_some alarm
  exact ⟨system, mail, ran, member⟩

end Conclave.Host
