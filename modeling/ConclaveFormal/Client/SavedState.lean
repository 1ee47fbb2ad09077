import ConclaveFormal.Client.Lifecycle

/-!
# Saved clients

`save` followed by `restoreState` gives back the key, the constraint, the state ID, the
enclave's key and the sequence numbers of a client in all states but one: a client which
is closed before it was ever started forgets the enclave's key and the numbers it was
restored with.
-/

set_option autoImplicit false

namespace Conclave.Client.Lifecycle

open Conclave.Lib Conclave.Common
open Conclave.Mail (Curve25519PublicKey EnclaveStateId StateIdHeader readCurve25519PublicKey
  readEnclaveStateId restores_publicKey restores_stateId)

/-! ## What a client remembers -/

/-- The key of the enclave the sequence numbers belong to. -/
def EnclaveClient.previousEnclaveKey (client : EnclaveClient) : Option Curve25519PublicKey :=
  match client.state with
  | .new previous => previous.enclaveKey
  | .running info => some info.encryptionKey
  | .closed (some info) => some info.encryptionKey
  | .closed none => client.created.enclaveKey

/-- A post office which is created later starts at zero. -/
def EnclaveClient.nextSequenceNumber (client : EnclaveClient) (topic : JString) : BitVec 64 :=
  let number := match client.state with
    | .new previous => previous.sequenceNumbers.lookup topic
    | .closed none => client.created.sequenceNumbers.lookup topic
    | _ => (client.postOffices.lookup topic).map PostOffice.sequenceNumber
  number.getD 0

structure Lossless (client restored : EnclaveClient) : Prop where
  clientPrivateKey : restored.clientPrivateKey = client.clientPrivateKey
  enclaveConstraint : client.enclaveConstraint.Equal restored.enclaveConstraint
  lastSeenStateId : restored.lastSeenStateId = client.lastSeenStateId
  previousEnclaveKey : restored.previousEnclaveKey = client.previousEnclaveKey
  nextSequenceNumber : ∀ topic,
    restored.nextSequenceNumber topic = client.nextSequenceNumber topic

/-! ## Reading back what was written -/

def writeSequenceNumber (entry : Sigma fun _ : JString => BitVec 64) : Bytes :=
  bigEndian 2 (encodeUtf entry.1).length ++ encodeUtf entry.1 ++ writeLong entry.2

theorem writeSequenceNumbers_eq_ok {entries : List (Sigma fun _ : JString => BitVec 64)}
    {bytes : Bytes} (ok : writeSequenceNumbers entries = .ok bytes) :
    bytes = entries.flatMap writeSequenceNumber ∧
      ∀ entry ∈ entries, ∃ utf, writeUTF entry.1 = .ok utf := by
  induction entries generalizing bytes with
  | nil =>
      cases ok
      exact ⟨rfl, by simp⟩
  | cons entry rest ih =>
      obtain ⟨topic, sequenceNumber⟩ := entry
      rw [writeSequenceNumbers] at ok
      cases utfEq : writeUTF topic with
      | error e =>
          rw [utfEq] at ok
          cases ok
      | ok utf =>
          cases laterEq : writeSequenceNumbers rest with
          | error e =>
              rw [utfEq, laterEq] at ok
              cases ok
          | ok later =>
              rw [utfEq, laterEq] at ok
              cases ok
              obtain ⟨flat, topics⟩ := ih laterEq
              refine ⟨?_, ?_⟩
              · rw [List.flatMap_cons, flat, writeUTF_eq_ok utfEq]
                rfl
              · intro other member
                rcases List.mem_cons.mp member with rfl | member
                · exact ⟨utf, utfEq⟩
                · exact topics other member

theorem restores_sequenceNumber {entry : Sigma fun _ : JString => BitVec 64} {utf : Bytes}
    (written : writeUTF entry.1 = .ok utf) :
    Restores readSequenceNumber (writeSequenceNumber entry) ()
      fun numbers => numbers.insert entry.1 entry.2 := by
  intro numbers rest
  have topic := Restores.ofData (σ := AssocMap JString (BitVec 64))
    fun rest => readUTF_writeUTF entry.1 utf rest written
  have number := Restores.ofData (σ := AssocMap JString (BitVec 64))
    (readLong_bigEndian entry.2)
  rw [writeSequenceNumber, ← writeUTF_eq_ok written, List.append_assoc, readSequenceNumber,
    topic.bind_apply]
  exact number.bind_apply _ _ rest

theorem restores_sequenceNumbers {entries : List (Sigma fun _ : JString => BitVec 64)}
    (topics : ∀ entry ∈ entries, ∃ utf, writeUTF entry.1 = .ok utf) :
    Restores (Restore.repeatTimes entries.length readSequenceNumber)
      (entries.flatMap writeSequenceNumber) () fun numbers => AssocMap.putAll entries numbers := by
  simp only [AssocMap.putAll]
  apply Restores.repeatTimes
  intro entry member
  obtain ⟨utf, written⟩ := topics entry member
  exact restores_sequenceNumber written

theorem restores_privateKey {σ : Type} (key : Curve25519PrivateKey) :
    Restores (readCurve25519PrivateKey (σ := σ)) key.encoded key id := by
  intro object rest
  have taken := Restores.readExactlyNBytes (σ := σ) key.encoded
  rw [key.size] at taken
  rw [readCurve25519PrivateKey]
  refine (taken.bind_apply _ object rest).trans ?_
  rw [dif_pos key.size]
  rfl

/-- What `restoreState` makes of the bytes a client has saved. -/
def EnclaveClient.recovered (client : EnclaveClient) : EnclaveClient :=
  let previous : Previous :=
    ⟨client.savedKey, AssocMap.putAll client.savedSequenceNumbers.entries ∅⟩
  { clientPrivateKey := client.clientPrivateKey
    enclaveConstraint := client.enclaveConstraint.reparsed
    state := .new previous
    postOffices := ∅
    lastSeenStateId := client.lastSeenStateId
    created := previous }

theorem save_eq_ok {client : EnclaveClient} {key : Curve25519PrivateKey} {saved : Bytes}
    (curve : client.clientPrivateKey = .curve25519 key) (ok : client.save = .ok saved) :
    ∃ constraint, writeUTF client.enclaveConstraint.text = .ok constraint ∧
      (∀ entry ∈ client.savedSequenceNumbers.entries, ∃ utf, writeUTF entry.1 = .ok utf) ∧
      client.savedSequenceNumbers.entries.length < 2 ^ 31 ∧
      saved = MAGIC ++ [1] ++ key.encoded ++ constraint ++
        nullableWrite Curve25519PublicKey.encoded client.savedKey ++
        nullableWrite EnclaveStateId.bytes client.lastSeenStateId ++
        writeInt client.savedSequenceNumbers.entries.length ++
        client.savedSequenceNumbers.entries.flatMap writeSequenceNumber := by
  rw [EnclaveClient.save, curve] at ok
  cases constraintEq : writeUTF client.enclaveConstraint.text with
  | error e =>
      rw [constraintEq] at ok
      cases ok
  | ok constraint =>
      cases numbersEq : writeSequenceNumbers client.savedSequenceNumbers.entries with
      | error e =>
          rw [constraintEq, numbersEq] at ok
          cases ok
      | ok numbers =>
          obtain ⟨rfl, topics⟩ := writeSequenceNumbers_eq_ok numbersEq
          rw [constraintEq, numbersEq] at ok
          simp only [PrivateKey.encoded] at ok
          split at ok
          · rename_i fits
            cases ok
            refine ⟨constraint, rfl, topics, ?_, rfl⟩
            have count : client.savedSequenceNumbers.entries.length ≤
                (client.savedSequenceNumbers.entries.flatMap writeSequenceNumber).length := by
              apply count_le_flatMap
              intro entry _
              simp [writeSequenceNumber]
            simp only [List.length_append] at fits
            omega
          · cases ok

/-- The text of a constraint is read back, unless its criteria are invalid. -/
theorem parseConstraint_text {σ : Type} {characters : Characters}
    (reads : ReadsAscii characters.digit) (constraint : EnclaveConstraint) (state : σ × Bytes) :
    parseConstraint characters constraint.text state =
      match constraint.checkCriteriaValid with
      | .ok _ => (.ok constraint.reparsed, state)
      | .error _ => (.error .illegalState, state) := by
  rw [parseConstraint, EnclaveConstraint.parse_text reads]
  cases valid : constraint.checkCriteriaValid with
  | ok _ => rfl
  | error error =>
      obtain ⟨message, rfl⟩ := EnclaveConstraint.checkCriteriaValid_error valid
      rfl

theorem readClient_save (characters : Characters) {client : EnclaveClient}
    {key : Curve25519PrivateKey} {saved : Bytes}
    (curve : client.clientPrivateKey = .curve25519 key) (ok : client.save = .ok saved)
    (reads : ReadsAscii characters.digit) :
    (readClient characters (∅, saved)).1 =
      match client.enclaveConstraint.checkCriteriaValid with
      | .ok _ => .ok client.recovered
      | .error _ => .error .illegalState := by
  obtain ⟨constraint, constraintEq, topics, count, rfl⟩ := save_eq_ok curve ok
  have magic := Restores.readExactlyNBytes (σ := AssocMap JString (BitVec 64)) MAGIC
  have version := Restores.read (σ := AssocMap JString (BitVec 64)) 1
  have descriptor := Restores.ofData (σ := AssocMap JString (BitVec 64))
    fun rest => readUTF_writeUTF client.enclaveConstraint.text constraint rest constraintEq
  simp only [List.append_assoc]
  rw [readClient, magic.bind_apply, Restores.check_bind (by simp), version.bind_apply,
    Restores.check_bind (by rfl), (restores_privateKey key).bind_apply, descriptor.bind_apply]
  have parsed := parseConstraint_text (σ := AssocMap JString (BitVec 64)) reads
    client.enclaveConstraint
  cases valid : client.enclaveConstraint.checkCriteriaValid with
  | error error =>
      simp only [valid] at parsed
      rw [Attempt.bind_error (parsed _)]
  | ok _ =>
      simp only [valid] at parsed
      have numbers := restores_sequenceNumbers topics ∅ []
      rw [List.append_nil] at numbers
      rw [Attempt.bind_ok (parsed _),
        (Restores.nullableRead _ fun key _ => restores_publicKey key).bind_apply,
        (Restores.nullableRead _ fun id _ => restores_stateId id).bind_apply,
        (Restores.readInt count).bind_apply, Int.toNat_natCast]
      simp only [id]
      rw [Attempt.bind_ok numbers, EnclaveClient.recovered, curve]
      rfl

theorem restoreState_save {characters : Characters} {client : EnclaveClient}
    {key : Curve25519PrivateKey} {saved : Bytes}
    (curve : client.clientPrivateKey = .curve25519 key) (ok : client.save = .ok saved)
    (reads : ReadsAscii characters.digit) :
    restoreState characters saved =
      match client.enclaveConstraint.checkCriteriaValid with
      | .ok _ => .ok client.recovered
      | .error _ => .error .illegalState := by
  rw [restoreState, readClient_save characters curve ok reads]
  cases client.enclaveConstraint.checkCriteriaValid <;> rfl

/-- A restored client is new, and its key is one for mail. -/
structure Fresh (client : EnclaveClient) : Prop where
  clientPrivateKey : ∃ key, client.clientPrivateKey = .curve25519 key
  state : client.state = .new client.created
  postOffices : client.postOffices = ∅

theorem readClient_fresh (characters : Characters) :
    Attempt.Returns Fresh (readClient characters) := by
  apply Attempt.Returns.bind; intro magic
  apply Attempt.Returns.bind; intro _
  apply Attempt.Returns.bind; intro version
  apply Attempt.Returns.bind; intro _
  apply Attempt.Returns.bind; intro key
  apply Attempt.Returns.bind; intro descriptor
  apply Attempt.Returns.bind; intro constraint
  apply Attempt.Returns.bind; intro enclaveKey
  apply Attempt.Returns.bind; intro stateId
  apply Attempt.Returns.bind; intro count
  apply Attempt.Returns.bind; intro _
  apply Attempt.Returns.bind; intro numbers
  apply Attempt.Returns.pure
  exact ⟨⟨key, rfl⟩, rfl, rfl⟩

theorem restoreState_fresh {characters : Characters} {saved : Bytes} {client : EnclaveClient}
    (restored : restoreState characters saved = .ok client) : Fresh client := by
  rw [restoreState] at restored
  cases ran : readClient characters (∅, saved) with
  | mk outcome after =>
      rw [ran] at restored
      cases outcome with
      | ok value =>
          cases restored
          exact readClient_fresh characters _ _ _ ran
      | error error => cases error <;> cases restored

/-! ## What the operations keep -/

section Operations

variable {σ α β : Type} {P : EnclaveClient → Prop}

/-- The method keeps the property, whether it returns or throws. -/
def Keeps (P : EnclaveClient → Prop) (method : Method σ α) : Prop :=
  Attempt.Preserves (fun before after => P before.1 → P after.1) method

theorem Keeps.pure (value : α) : Keeps (σ := σ) P (Pure.pure value) :=
  Attempt.Preserves.pure (fun _ kept => kept) value

theorem Keeps.throw (exception : ClientException) :
    Keeps (σ := σ) (α := α) P (Attempt.throw exception) :=
  Attempt.Preserves.throw (fun _ kept => kept) exception

theorem Keeps.bind {method : Method σ α} {next : α → Method σ β} (first : Keeps P method)
    (second : ∀ value, Keeps P (next value)) : Keeps P (method >>= next) :=
  Attempt.Preserves.bind (fun _ _ _ before after kept => after (before kept)) first second

theorem Keeps.currentClient : Keeps (σ := σ) P currentClient :=
  fun _ kept => kept

theorem Keeps.updateClient {change : EnclaveClient → EnclaveClient}
    (keeps : ∀ client, P client → P (change client)) :
    Keeps (σ := σ) P (updateClient change) :=
  fun state => keeps state.1

theorem Keeps.call (f : σ → α × σ) : Keeps P (call f) :=
  fun _ kept => kept

theorem Keeps.callOrThrow (exception : ClientException) (f : σ → Option α × σ) :
    Keeps P (callOrThrow exception f) := by
  refine Keeps.bind (Keeps.call f) ?_
  intro answer
  cases answer with
  | none => exact Keeps.throw exception
  | some value => exact Keeps.pure value

theorem Keeps.ofExcept (result : Except ClientException α) :
    Keeps (σ := σ) P (ofExcept result) := by
  cases result with
  | error exception => exact Keeps.throw exception
  | ok value => exact Keeps.pure value

variable (characters : Characters) (maxArrayLength : Nat) (environment : Environment σ)

theorem Keeps.postOffice (putOffice : ∀ client topic office,
    P client → P (putPostOffice topic office client)) (topic : JString) :
    Keeps (σ := σ) P (postOffice characters topic) := by
  refine Keeps.bind Keeps.currentClient ?_
  intro client
  cases client.postOffices.lookup topic with
  | some office => exact Keeps.pure office
  | none =>
      refine Keeps.bind (Keeps.ofExcept _) ?_
      intro info
      refine Keeps.bind (Keeps.ofExcept _) ?_
      intro office
      refine Keeps.bind (Keeps.updateClient fun client => putOffice client topic office) ?_
      intro _
      exact Keeps.pure office

theorem Keeps.encryptMail (putOffice : ∀ client topic office,
    P client → P (putPostOffice topic office client)) (topic : JString) (body : Bytes)
    (envelope : Option Bytes) :
    Keeps P (encryptMail characters maxArrayLength environment topic body envelope) := by
  refine Keeps.bind (Keeps.postOffice characters putOffice topic) ?_
  intro office
  refine Keeps.bind (Keeps.updateClient fun client => putOffice client topic _) ?_
  intro _
  refine Keeps.bind (Keeps.callOrThrow _ _) ?_
  intro minSize
  split
  · refine Keeps.bind Keeps.currentClient ?_
    intro client
    exact Keeps.pure _
  · exact Keeps.throw _

theorem Keeps.acceptStateIds (seeStateId : ∀ client stateId,
    P client → P { client with lastSeenStateId := stateId }) (header : StateIdHeader) :
    Keeps (σ := σ) P (acceptStateIds header) := by
  refine Keeps.bind Keeps.currentClient ?_
  intro client
  dsimp only
  split
  · refine Keeps.bind (Keeps.updateClient fun client => seeStateId client _) ?_
    intro _
    split
    · exact Keeps.throw _
    · exact Keeps.pure _
  · exact Keeps.pure _

theorem Keeps.processMail (seeStateId : ∀ client stateId,
    P client → P { client with lastSeenStateId := stateId }) (received : Received) :
    Keeps (σ := σ) P (processMail received) := by
  cases received with
  | mailDecryption => exact Keeps.throw _
  | otherSender => exact Keeps.throw _
  | opened privateHeader =>
      cases privateHeader with
      | none => exact Keeps.pure _
      | some privateHeader =>
          rw [Lifecycle.processMail]
          split
          · exact Keeps.throw _
          · exact Keeps.acceptStateIds seeStateId _

theorem Keeps.switchEnclave
    (resetOffices : ∀ client info, P client → P (resetPostOffices info client))
    (setRunning : ∀ client info, P client → P (setState (.running info) client))
    (newInfo : EnclaveInstanceInfo) : Keeps (σ := σ) P (switchEnclave newInfo) := by
  refine Keeps.bind Keeps.currentClient ?_
  intro client
  split
  · exact Keeps.throw _
  · exact Keeps.throw _
  · refine Keeps.bind (Keeps.updateClient fun client => resetOffices client newInfo) ?_
    intro _
    exact Keeps.updateClient fun client => setRunning client newInfo

theorem Keeps.redownload
    (resetOffices : ∀ client info, P client → P (resetPostOffices info client))
    (setRunning : ∀ client info, P client → P (setState (.running info) client))
    (info : EnclaveInstanceInfo) : Keeps P (redownload environment info) := by
  refine Keeps.bind (Keeps.callOrThrow _ _) ?_
  intro newInfo
  split
  · exact Keeps.throw _
  · exact Keeps.switchEnclave resetOffices setRunning newInfo

/-- The operations of a started client leave it started. -/
def Started (client : EnclaveClient) : Prop := ∃ info, client.state = .running info

theorem started_sendAttempts (topic : JString) (body : Bytes) (envelope : Option Bytes)
    (attempts : Nat) :
    Keeps Started (sendAttempts characters maxArrayLength environment topic body envelope
      attempts) := by
  induction attempts with
  | zero => exact Keeps.throw _
  | succ attempts ih =>
      refine Keeps.bind (Keeps.encryptMail characters maxArrayLength environment
        (fun _ _ _ started => started) topic body envelope) ?_
      intro mail
      refine Keeps.bind (Keeps.call _) ?_
      intro reply
      cases reply with
      | exception => exact Keeps.throw _
      | mailDecryption =>
          refine Keeps.bind Keeps.currentClient ?_
          intro client
          refine Keeps.bind (Keeps.ofExcept _) ?_
          intro info
          refine Keeps.bind (Keeps.redownload environment ?_ ?_ info) ?_
          · exact fun _ _ started => started
          · exact fun client newInfo _ => ⟨newInfo, rfl⟩
          · intro _
            exact ih
      | response mail =>
          cases mail with
          | none => exact Keeps.pure _
          | some received => exact Keeps.processMail (fun _ _ started => started) received

theorem started_sendMail (topic : JString) (body : Bytes) (envelope : Option Bytes) :
    Keeps Started (sendMail characters maxArrayLength environment topic body envelope) := by
  refine Keeps.bind Keeps.currentClient ?_
  intro client
  split
  · exact started_sendAttempts characters maxArrayLength environment topic body envelope _
  · exact Keeps.throw _

theorem started_pollMail : Keeps Started (pollMail environment) := by
  refine Keeps.bind Keeps.currentClient ?_
  intro client
  split
  · refine Keeps.bind (Keeps.callOrThrow _ _) ?_
    intro response
    cases response with
    | none => exact Keeps.pure _
    | some received => exact Keeps.processMail (fun _ _ started => started) received
  · exact Keeps.throw _

/-! ## A client that was never started -/

/-- Before it is started a client holds what it was created with, and it has post offices only
after a start that failed although the enclave had the key the client knew. -/
structure Sound (client : EnclaveClient) : Prop where
  created : ∀ previous, client.state = .new previous → client.created = previous
  postOffices : ¬ Started client → (∀ info, client.state ≠ .closed (some info)) →
    client.created.enclaveKey = none → client.postOffices = ∅

theorem Sound.of_started {client : EnclaveClient} (started : Started client) : Sound client := by
  obtain ⟨info, running⟩ := started
  refine ⟨?_, ?_⟩
  · intro previous new
    rw [running] at new
    cases new
  · intro stopped
    exact absurd ⟨info, running⟩ stopped

theorem Fresh.sound {client : EnclaveClient} (fresh : Fresh client) : Sound client := by
  refine ⟨?_, fun _ _ _ => fresh.postOffices⟩
  intro previous new
  rw [fresh.state] at new
  cases new
  rfl

/-- A client as `start` finds it, perhaps with post offices or running. -/
structure Starting (first client : EnclaveClient) : Prop where
  state : client.state = first.state ∨ Started client
  created : client.created = first.created
  postOffices : first.created.enclaveKey = none → client.postOffices = first.postOffices

theorem starting_restorePostOffices {first : EnclaveClient}
    (known : first.created.enclaveKey ≠ none) (info : EnclaveInstanceInfo)
    (entries : List (Sigma fun _ : JString => BitVec 64)) :
    Keeps (σ := σ) (Starting first) (restorePostOffices characters info entries) := by
  induction entries with
  | nil => exact Keeps.pure _
  | cons entry rest ih =>
      refine Keeps.bind Keeps.currentClient ?_
      intro client
      refine Keeps.bind (Keeps.ofExcept _) ?_
      intro office
      refine Keeps.bind (Keeps.ofExcept _) ?_
      intro office
      refine Keeps.bind (Keeps.updateClient ?_) fun _ => ih
      intro client starting
      exact ⟨starting.state, starting.created, fun unknown => absurd unknown known⟩

theorem starting_resumePostOffices {first : EnclaveClient} {previous : Previous}
    (created : first.created = previous) (info : EnclaveInstanceInfo) :
    Keeps (σ := σ) (Starting first) (resumePostOffices characters previous info) := by
  rw [resumePostOffices]
  split
  · rename_i same
    apply starting_restorePostOffices
    rw [created, same]
    exact Option.some_ne_none _
  · exact Keeps.pure _

theorem starting_start {client : EnclaveClient} (sound : Sound client) (outside : σ) :
    Starting client (start characters environment (client, outside)).2.1 := by
  have here : Starting client client := ⟨Or.inl rfl, rfl, fun _ => rfl⟩
  rw [start, Lifecycle.currentClient]
  cases state : client.state with
  | new previous =>
      have created := sound.created previous state
      have body : Keeps (Starting client) (do
          let info ← Lifecycle.callOrThrow .transport environment.enclaveInstanceInfo
          Lifecycle.ofExcept ((client.enclaveConstraint.checkAgainst info).mapError .constraint)
          resumePostOffices characters previous info
          Lifecycle.callOrThrow .transport environment.connect
          Lifecycle.updateClient (setState (.running info))) := by
        refine Keeps.bind (Keeps.callOrThrow _ _) ?_
        intro info
        refine Keeps.bind (Keeps.ofExcept _) ?_
        intro _
        refine Keeps.bind (starting_resumePostOffices characters created info) ?_
        intro _
        refine Keeps.bind (Keeps.callOrThrow _ _) ?_
        intro _
        apply Keeps.updateClient
        intro client starting
        exact ⟨Or.inr ⟨info, rfl⟩, starting.created, starting.postOffices⟩
      have ran := body (client, outside) here
      simp only [bind, Attempt.get, pure, state] at ran ⊢
      exact ran
  | running info =>
      simp only [bind, Attempt.get, pure, state]
      exact here
  | closed running =>
      simp only [bind, Attempt.get, pure, state]
      exact here

end Operations

/-! ## Reachable clients -/

inductive Operation where
  | start
  | sendMail (topic : JString) (body : Bytes) (envelope : Option Bytes)
  | pollMail
  | close

def Operation.method {σ : Type} (characters : Characters) (maxArrayLength : Nat)
    (environment : Environment σ) : Operation → Method σ Unit
  | .start => Lifecycle.start characters environment
  | .sendMail topic body envelope =>
      Lifecycle.sendMail characters maxArrayLength environment topic body envelope
  | .pollMail => Lifecycle.pollMail environment
  | .close => Lifecycle.close environment

/-- An operation returns or throws; the transport and the size policies may do anything. -/
inductive Reachable (characters : Characters) (maxArrayLength : Nat) : EnclaveClient → Prop
  | constructed (clientPrivateKey : PrivateKey) (enclaveConstraint : EnclaveConstraint) :
      Reachable characters maxArrayLength (.new clientPrivateKey enclaveConstraint)
  | restored {saved : Bytes} {client : EnclaveClient}
      (restores : restoreState characters saved = .ok client) :
      Reachable characters maxArrayLength client
  | operated {client : EnclaveClient} {σ : Type} (environment : Environment σ) (outside : σ)
      (operation : Operation) (reachable : Reachable characters maxArrayLength client) :
      Reachable characters maxArrayLength
        (operation.method characters maxArrayLength environment (client, outside)).2.1


theorem Starting.sound {first client : EnclaveClient} (sound : Sound first)
    (starting : Starting first client) : Sound client := by
  rcases starting.state with same | started
  · refine ⟨?_, ?_⟩
    · intro previous new
      rw [starting.created]
      exact sound.created previous (same ▸ new)
    · intro stopped neverStarted unknown
      rw [starting.created] at unknown
      rw [starting.postOffices unknown]
      apply sound.postOffices
      · rintro ⟨info, running⟩
        exact stopped ⟨info, same ▸ running⟩
      · intro info
        rw [← same]
        exact neverStarted info
      · exact unknown
  · exact Sound.of_started started

section Operations

variable {σ : Type} (characters : Characters) (maxArrayLength : Nat) (environment : Environment σ)

theorem sendMail_of_not_started {client : EnclaveClient} (stopped : ¬ Started client)
    (topic : JString) (body : Bytes) (envelope : Option Bytes) (outside : σ) :
    (sendMail characters maxArrayLength environment topic body envelope (client, outside)).2.1 =
      client := by
  rw [sendMail, Lifecycle.currentClient]
  simp only [bind, Attempt.get, pure]
  cases state : client.state with
  | new previous => rfl
  | running info => exact absurd ⟨info, state⟩ stopped
  | closed running => rfl

theorem pollMail_of_not_started {client : EnclaveClient} (stopped : ¬ Started client)
    (outside : σ) : (pollMail environment (client, outside)).2.1 = client := by
  rw [pollMail, Lifecycle.currentClient]
  simp only [bind, Attempt.get, pure]
  cases state : client.state with
  | new previous => rfl
  | running info => exact absurd ⟨info, state⟩ stopped
  | closed running => rfl

/-- What `close` leaves behind, also when the connection cannot be closed. -/
def EnclaveClient.afterClose (client : EnclaveClient) : EnclaveClient :=
  match client.state with
  | .new _ => setState (.closed none) client
  | .running info => setState (.closed (some info)) client
  | .closed _ => client

theorem close_client (client : EnclaveClient) (outside : σ) :
    (close environment (client, outside)).2.1 = client.afterClose := by
  rw [close, Lifecycle.currentClient, EnclaveClient.afterClose]
  simp only [bind, Attempt.get, pure]
  cases client.state with
  | new previous => rfl
  | running info =>
      have kept : Keeps (· = setState (.closed (some info)) client)
          (Lifecycle.callOrThrow .transport environment.disconnect) := Keeps.callOrThrow _ _
      exact kept (setState (.closed (some info)) client, outside) rfl
  | closed running => rfl

theorem Sound.afterClose {client : EnclaveClient} (sound : Sound client) :
    Sound client.afterClose := by
  rw [EnclaveClient.afterClose]
  cases state : client.state with
  | new previous =>
      refine ⟨fun _ new => (by cases new), fun _ _ unknown => ?_⟩
      apply sound.postOffices
      · rintro ⟨info, running⟩
        rw [state] at running
        cases running
      · intro info closed
        rw [state] at closed
        cases closed
      · exact unknown
  | running info =>
      refine ⟨fun _ new => (by cases new), fun _ neverStarted => ?_⟩
      exact absurd rfl (neverStarted info)
  | closed running => exact sound

theorem Sound.operated {client : EnclaveClient} (sound : Sound client) (operation : Operation)
    (outside : σ) :
    Sound (operation.method characters maxArrayLength environment (client, outside)).2.1 := by
  cases operation with
  | start => exact (starting_start characters environment sound outside).sound sound
  | sendMail topic body envelope =>
      by_cases started : Started client
      · exact Sound.of_started (started_sendMail characters maxArrayLength environment topic body
          envelope (client, outside) started)
      · rw [Operation.method, sendMail_of_not_started _ _ _ started]
        exact sound
  | pollMail =>
      by_cases started : Started client
      · exact Sound.of_started (started_pollMail environment (client, outside) started)
      · rw [Operation.method, pollMail_of_not_started _ started]
        exact sound
  | close =>
      rw [Operation.method, close_client]
      exact sound.afterClose

end Operations

theorem Reachable.sound {characters : Characters} {maxArrayLength : Nat} {client : EnclaveClient}
    (reachable : Reachable characters maxArrayLength client) : Sound client := by
  induction reachable with
  | constructed clientPrivateKey enclaveConstraint =>
      refine ⟨fun previous new => ?_, fun _ _ _ => rfl⟩
      cases new
      rfl
  | restored restores => exact (restoreState_fresh restores).sound
  | operated environment outside operation _ sound =>
      exact sound.operated characters maxArrayLength environment operation outside

/-! ## When nothing is lost -/

structure Recoverable (client : EnclaveClient) : Prop where
  clientPrivateKey : ∃ key, client.clientPrivateKey = .curve25519 key
  enclaveConstraint : client.enclaveConstraint.checkCriteriaValid = .ok ()
  neverStarted : client.state = .closed none → client.created.enclaveKey = none ∧
    ∀ topic, (client.created.sequenceNumbers.lookup topic).getD 0 = 0

theorem recovered_nextSequenceNumber (client : EnclaveClient) (topic : JString) :
    client.recovered.nextSequenceNumber topic =
      (client.savedSequenceNumbers.lookup topic).getD 0 := by
  simp only [EnclaveClient.nextSequenceNumber, EnclaveClient.recovered,
    AssocMap.lookup_putAll_entries]

theorem savedSequenceNumbers_of_offices {client : EnclaveClient} (topic : JString)
    (notNew : ∀ previous, client.state ≠ .new previous) :
    client.savedSequenceNumbers.lookup topic =
      (client.postOffices.lookup topic).map PostOffice.sequenceNumber := by
  rw [EnclaveClient.savedSequenceNumbers]
  split
  · rename_i previous new
    exact absurd new (notNew previous)
  · exact AssocMap.lookup_replaceAll _ _ topic

theorem recovered_lossless_iff {client : EnclaveClient} (sound : Sound client) :
    Lossless client client.recovered ↔
      (client.state = .closed none → client.created.enclaveKey = none ∧
        ∀ topic, (client.created.sequenceNumbers.lookup topic).getD 0 = 0) := by
  have constraint := client.enclaveConstraint.reparsed_equal
  cases state : client.state with
  | new previous =>
      refine ⟨fun _ closed => (by cases closed), fun _ => ⟨rfl, constraint, rfl, ?_, ?_⟩⟩
      · simp only [EnclaveClient.previousEnclaveKey, EnclaveClient.recovered,
          EnclaveClient.savedKey, state]
      · intro topic
        rw [recovered_nextSequenceNumber]
        simp only [EnclaveClient.savedSequenceNumbers, EnclaveClient.nextSequenceNumber, state]
  | running info =>
      refine ⟨fun _ closed => (by cases closed), fun _ => ⟨rfl, constraint, rfl, ?_, ?_⟩⟩
      · simp only [EnclaveClient.previousEnclaveKey, EnclaveClient.recovered,
          EnclaveClient.savedKey, state]
      · intro topic
        rw [recovered_nextSequenceNumber, savedSequenceNumbers_of_offices topic (by simp [state])]
        simp only [EnclaveClient.nextSequenceNumber, state]
  | closed running =>
      cases running with
      | some info =>
          refine ⟨fun _ closed => (by cases closed), fun _ => ⟨rfl, constraint, rfl, ?_, ?_⟩⟩
          · simp only [EnclaveClient.previousEnclaveKey, EnclaveClient.recovered,
              EnclaveClient.savedKey, state, Option.map_some]
          · intro topic
            rw [recovered_nextSequenceNumber,
              savedSequenceNumbers_of_offices topic (by simp [state])]
            simp only [EnclaveClient.nextSequenceNumber, state]
      | none =>
          have key : client.recovered.previousEnclaveKey = client.previousEnclaveKey ↔
              client.created.enclaveKey = none := by
            simp only [EnclaveClient.previousEnclaveKey, EnclaveClient.recovered,
              EnclaveClient.savedKey, state, Option.map_none]
            exact eq_comm
          have numbers : client.created.enclaveKey = none → ∀ topic,
              client.recovered.nextSequenceNumber topic = 0 := by
            intro unknown topic
            have empty : client.postOffices = ∅ := by
              apply sound.postOffices
              · rintro ⟨info, running⟩
                rw [state] at running
                cases running
              · simp [state]
              · exact unknown
            rw [recovered_nextSequenceNumber,
              savedSequenceNumbers_of_offices topic (by simp [state]), empty]
            rfl
          have expected : ∀ topic, client.nextSequenceNumber topic =
              (client.created.sequenceNumbers.lookup topic).getD 0 := by
            intro topic
            simp only [EnclaveClient.nextSequenceNumber, state]
          constructor
          · intro lossless _
            have unknown := key.mp lossless.previousEnclaveKey
            refine ⟨unknown, fun topic => ?_⟩
            rw [← expected topic, ← lossless.nextSequenceNumber topic, numbers unknown topic]
          · intro condition
            obtain ⟨unknown, zero⟩ := condition rfl
            refine ⟨rfl, constraint, rfl, key.mpr unknown, fun topic => ?_⟩
            rw [numbers unknown topic, expected topic, zero topic]

/-- The bytes a client has saved restore all of it exactly when its key is one for mail, its
constraint could be checked, and it had nothing to remember if it was closed before it was
started. -/
theorem restoreState_save_iff {characters : Characters} {maxArrayLength : Nat}
    {client : EnclaveClient} {saved : Bytes} (reads : ReadsAscii characters.digit)
    (reachable : Reachable characters maxArrayLength client) (ok : client.save = .ok saved) :
    (∃ restored, restoreState characters saved = .ok restored ∧ Lossless client restored) ↔
      Recoverable client := by
  have lossless := recovered_lossless_iff reachable.sound
  constructor
  · rintro ⟨restored, restores, same⟩
    obtain ⟨key, restoredKey⟩ := (restoreState_fresh restores).clientPrivateKey
    have curve : client.clientPrivateKey = .curve25519 key := by
      rw [← same.clientPrivateKey, restoredKey]
    rw [restoreState_save curve ok reads] at restores
    cases valid : client.enclaveConstraint.checkCriteriaValid with
    | error error =>
        rw [valid] at restores
        cases restores
    | ok value =>
        rw [valid] at restores
        cases restores
        exact ⟨⟨key, curve⟩, valid, lossless.mp same⟩
  · intro recoverable
    obtain ⟨key, curve⟩ := recoverable.clientPrivateKey
    refine ⟨client.recovered, ?_, lossless.mpr recoverable.neverStarted⟩
    rw [restoreState_save curve ok reads, recoverable.enclaveConstraint]

/-! ## A client that forgets -/

section Example

def exampleCharacters : Characters := ⟨fun _ => true, fun _ => false, asciiDigit⟩

def exampleConstraint : EnclaveConstraint where
  acceptableCodeHashes := [⟨List.replicate 32 1, Or.inl rfl⟩]
  acceptableSigners := []
  productID := none
  minRevocationLevel := none
  minSecurityLevel := .INSECURE
  maxAttestationAge := none

def exampleClient : EnclaveClient :=
  .new (.curve25519 ⟨List.replicate 32 7, rfl⟩) exampleConstraint

def unreachableHost : Environment Unit where
  enclaveInstanceInfo := fun _ => (none, ())
  connect := fun _ => (none, ())
  disconnect := fun _ => (none, ())
  minSize := fun _ _ _ => (none, ())
  sendMail := fun _ _ => (.exception, ())
  pollMail := fun _ => (none, ())

/-- A client that has sent one mail with the topic "t", as it is restored. -/
def restoredClient : EnclaveClient :=
  let previous : Previous :=
    ⟨some ⟨List.replicate 32 9, rfl⟩, (∅ : AssocMap JString (BitVec 64)).insert [116] 1⟩
  { exampleClient with
    state := .new previous
    created := previous }

theorem restoredClient_reachable :
    Reachable exampleCharacters 2147483647 restoredClient.recovered := by
  have saves : restoredClient.save.toOption.isSome = true := by decide +kernel
  cases ok : restoredClient.save with
  | error error =>
      rw [ok] at saves
      cases saves
  | ok saved => exact .restored (restoreState_save rfl ok asciiDigit_readsAscii)

theorem restoreState_save_iff_restoredClient :
    ∃ saved restored, restoredClient.recovered.save = .ok saved ∧
      restoreState exampleCharacters saved = .ok restored ∧
        Lossless restoredClient.recovered restored ∧
          restored.previousEnclaveKey = some ⟨List.replicate 32 9, rfl⟩ ∧
            restored.nextSequenceNumber [116] = 1 := by
  have saves : restoredClient.recovered.save.toOption.isSome = true := by decide +kernel
  cases ok : restoredClient.recovered.save with
  | error error =>
      rw [ok] at saves
      cases saves
  | ok saved =>
      have recoverable : Recoverable restoredClient.recovered :=
        ⟨⟨_, rfl⟩, rfl, fun closed => (by cases closed)⟩
      obtain ⟨restored, restores, lossless⟩ :=
        (restoreState_save_iff asciiDigit_readsAscii restoredClient_reachable ok).mpr recoverable
      refine ⟨saved, restored, rfl, restores, lossless, ?_, ?_⟩
      · rw [lossless.previousEnclaveKey]
        rfl
      · rw [lossless.nextSequenceNumber]
        decide

def closedClient : EnclaveClient := restoredClient.recovered.afterClose

theorem closedClient_forgets :
    ¬ ∀ client saved, Reachable exampleCharacters 2147483647 client → client.save = .ok saved →
      ∃ restored, restoreState exampleCharacters saved = .ok restored ∧
        Lossless client restored := by
  intro stated
  have savesClosed : closedClient.save.toOption.isSome = true := by decide +kernel
  have closes := Reachable.operated unreachableHost () .close restoredClient_reachable
  rw [Operation.method, close_client] at closes
  cases ok : closedClient.save with
  | error error =>
      rw [ok] at savesClosed
      cases savesClosed
  | ok saved =>
      obtain ⟨restored, again, lossless⟩ := stated closedClient saved closes ok
      have forgot : restoreState exampleCharacters saved = .ok closedClient.recovered :=
        restoreState_save rfl ok asciiDigit_readsAscii
      rw [forgot] at again
      cases again
      cases lossless.previousEnclaveKey

end Example

end Conclave.Client.Lifecycle
