import ConclaveFormal.Client.FailedStart
import ConclaveFormal.Lib.Transition

/-!
# The numbers of a client and its enclave

The client numbers its mail topic by topic, and so does the enclave.  The enclave forgets its
numbers when it restarts with a new key, and the client when it finds out: at the next start, or
when its mail cannot be decrypted.
-/

set_option autoImplicit false

namespace Conclave.Client.Lifecycle.SequenceAgreement

open Conclave.Lib Conclave.Common
open Conclave.Mail (Curve25519PublicKey Producible)

/-! ## The enclave and the transport -/

/-- The watermarks are those of the mail of this client.  The last two fields are for the
specification only: the keys that the enclave has had, and every mail that was encrypted to its key
of the time, with the number that it expected. -/
structure Enclave where
  encryptionKey : Curve25519PublicKey
  sequenceWatermarks : JString → BitVec 64
  usedKeys : List Curve25519PublicKey
  delivered : List (SentMail × BitVec 64)

namespace Enclave

def new (encryptionKey : Curve25519PublicKey) : Enclave :=
  ⟨encryptionKey, fun _ => -1, [encryptionKey], []⟩

def expected (enclave : Enclave) (topic : JString) : BitVec 64 :=
  enclave.sequenceWatermarks topic + 1

/-- The key of a restarted enclave is one that it has not had before. -/
def restart (enclave : Enclave) (encryptionKey : Curve25519PublicKey) : Enclave :=
  if encryptionKey ∈ enclave.usedKeys then enclave
  else { enclave with
    encryptionKey := encryptionKey
    sequenceWatermarks := fun _ => -1
    usedKeys := encryptionKey :: enclave.usedKeys }

/-- `checkOrdering` of a mail that the enclave has decrypted. -/
def receive (enclave : Enclave) (mail : SentMail) : Bool × Enclave :=
  let expected := enclave.expected mail.header.topic
  let enclave := { enclave with delivered := enclave.delivered ++ [(mail, expected)] }
  if mail.header.sequenceNumber = expected then
    (true, { enclave with
      sequenceWatermarks := Function.update enclave.sequenceWatermarks mail.header.topic expected })
  else (false, enclave)

end Enclave

/-- What happens during one operation of the client, one call of the transport or of a size policy
after the other.  Before each of them the enclave may restart. -/
structure Circumstances where
  restart : Nat → Option Curve25519PublicKey
  enclaveInstanceInfo : Nat → EnclaveInstanceInfo
  connects : Nat → Bool
  minSize : Nat → Option Int
  response : Nat → Option Received

/-- The enclave, and the number of calls so far. -/
abbrev World : Type := Enclave × Nat

namespace Circumstances

variable (circumstances : Circumstances)

def next : World → World := fun (enclave, calls) =>
  ((circumstances.restart calls).elim enclave enclave.restart, calls + 1)

/-- Mail that is not encrypted to the key of the enclave is not decrypted, and it takes no mail with
a wrong number. -/
def sendMail (mail : SentMail) : World → Reply × World := fun world =>
  let (enclave, calls) := circumstances.next world
  if mail.destination = enclave.encryptionKey then
    let (accepted, enclave) := enclave.receive mail
    (if accepted then .response (circumstances.response world.2) else .exception, (enclave, calls))
  else (.mailDecryption, (enclave, calls))

def environment : Environment World where
  enclaveInstanceInfo world :=
    (some { circumstances.enclaveInstanceInfo world.2 with
      encryptionKey := (circumstances.next world).1.encryptionKey }, circumstances.next world)
  connect world :=
    (if circumstances.connects world.2 then some () else none, circumstances.next world)
  disconnect world := (some (), circumstances.next world)
  minSize _ _ world := (circumstances.minSize world.2, circumstances.next world)
  sendMail := circumstances.sendMail
  pollMail world := (some none, circumstances.next world)

end Circumstances

/-! ## Runs -/

inductive Operation where
  | sendMail (topic : JString) (body : Bytes) (envelope : Option Bytes)
      (circumstances : Circumstances)
  | restart (encryptionKey : Curve25519PublicKey)
  /-- The client is saved and restored, and started again. -/
  | replace (circumstances : Circumstances)

section Runs

variable (characters : Characters) (maxArrayLength : Nat)

def finished {α : Type} (result : α × EnclaveClient × World) : EnclaveClient × Enclave :=
  (result.2.1, result.2.2.1)

/-- A client that cannot be saved and restored stays as it is. -/
def replace (circumstances : Circumstances) (client : EnclaveClient) (enclave : Enclave) :
    EnclaveClient × Enclave :=
  match client.save with
  | .error _ => (client, enclave)
  | .ok saved =>
      match restoreState characters saved with
      | .error _ => (client, enclave)
      | .ok restored =>
          finished (start characters circumstances.environment (restored, (enclave, 0)))

def step : EnclaveClient × Enclave → Operation → Option (EnclaveClient × Enclave)
  | (client, enclave), .sendMail topic body envelope circumstances =>
      some (finished (Lifecycle.sendMail characters maxArrayLength circumstances.environment topic
        body envelope (client, (enclave, 0))))
  | (client, enclave), .restart encryptionKey => some (client, enclave.restart encryptionKey)
  | (client, enclave), .replace circumstances =>
      some (replace characters circumstances client enclave)

/-- A new client with a key for mail has been started. -/
def initial (circumstances : Circumstances) (clientPrivateKey : Curve25519PrivateKey)
    (enclaveConstraint : EnclaveConstraint) (encryptionKey : Curve25519PublicKey) :
    EnclaveClient × Enclave :=
  finished (start characters circumstances.environment
    (.new (.curve25519 clientPrivateKey) enclaveConstraint, (.new encryptionKey, 0)))

/-- No number is taken for mail that is then not encrypted: the size policy answers, and the mail
fits into an array. -/
def Encryptable : EnclaveClient × Enclave → Operation → Prop
  | _, .sendMail topic body envelope circumstances =>
      ∀ calls, ∃ minSize, circumstances.minSize calls = some minSize ∧ ∀ sequenceNumber,
        Producible maxArrayLength ⟨sequenceNumber, topic, envelope, none⟩ minSize.toNat body none
  | _, _ => True

end Runs

/-- Every mail that was encrypted to the key of the enclave had the number that it expected. -/
def InSequence (state : EnclaveClient × Enclave) : Prop :=
  ∀ entry ∈ state.2.delivered, entry.1.header.sequenceNumber = entry.2

/-! ## What the two know of each other -/

/-- The client and the enclave agree on the numbers as long as they agree on the key; when they do
not, the enclave has had no mail yet. -/
structure Agree (client : EnclaveClient) (enclave : Enclave) : Prop where
  notClosed : ∀ running, client.state ≠ .closed running
  curve : ∃ key, client.clientPrivateKey = .curve25519 key
  offices : ∀ info, client.state = .running info → ∀ topic office,
    client.postOffices.lookup topic = some office →
    office.destinationPublicKey = info.encryptionKey
  used : enclave.encryptionKey ∈ enclave.usedKeys
  known : ∀ key, client.previousEnclaveKey = some key → key ∈ enclave.usedKeys
  same : client.previousEnclaveKey = some enclave.encryptionKey →
    ∀ topic, enclave.expected topic = client.nextSequenceNumber topic
  changed : client.previousEnclaveKey ≠ some enclave.encryptionKey →
    ∀ topic, enclave.expected topic = 0
  delivered : ∀ entry ∈ enclave.delivered, entry.1.header.sequenceNumber = entry.2

namespace Agree

variable {client after : EnclaveClient} {enclave : Enclave} {info newInfo : EnclaveInstanceInfo}
  {topic : JString} {world : World}

theorem restart (agree : Agree client enclave) (encryptionKey : Curve25519PublicKey) :
    Agree client (enclave.restart encryptionKey) := by
  rw [Enclave.restart]
  by_cases old : encryptionKey ∈ enclave.usedKeys
  · rw [if_pos old]
    exact agree
  · rw [if_neg old]
    refine { agree with used := ?_, known := ?_, same := ?_, changed := ?_ }
    · exact List.mem_cons_self
    · intro key known
      exact List.mem_cons_of_mem _ (agree.known key known)
    · intro known
      exact absurd (agree.known encryptionKey known) old
    · intro _ topic
      have first : (-1 : BitVec 64) + 1 = 0 := by decide
      exact first

theorem next (agree : Agree client world.1) (circumstances : Circumstances) :
    Agree client (circumstances.next world).1 := by
  obtain ⟨enclave, calls⟩ := world
  rw [Circumstances.next]
  cases circumstances.restart calls with
  | none => exact agree
  | some key => exact agree.restart key

theorem of_seen (agree : Agree client enclave) (lastSeenStateId : Option Mail.EnclaveStateId) :
    Agree { client with lastSeenStateId := lastSeenStateId } enclave :=
  { agree with }

end Agree

/-! ## One attempt to send -/

/-- A number of the topic has been taken. -/
structure Numbered (client after : EnclaveClient) (info : EnclaveInstanceInfo) (topic : JString) :
    Prop where
  state : after.state = client.state
  clientPrivateKey : after.clientPrivateKey = client.clientPrivateKey
  office : after.postOffices.lookup topic =
    some ⟨info.encryptionKey, client.nextSequenceNumber topic + 1, true⟩
  others : ∀ other, other ≠ topic →
    after.postOffices.lookup other = client.postOffices.lookup other

section Attempt

variable {characters : Characters} {maxArrayLength : Nat} {client after : EnclaveClient}
  {enclave : Enclave} {info : EnclaveInstanceInfo} {topic : JString} {body : Bytes}
  {envelope : Option Bytes} {circumstances : Circumstances} {world : World} {mail : SentMail}

theorem nextSequenceNumber_running (running : client.state = .running info) (topic : JString) :
    client.nextSequenceNumber topic =
      ((client.postOffices.lookup topic).map PostOffice.sequenceNumber).getD 0 := by
  simp only [EnclaveClient.nextSequenceNumber, running]

theorem previousEnclaveKey_running (running : client.state = .running info) :
    client.previousEnclaveKey = some info.encryptionKey := by
  simp only [EnclaveClient.previousEnclaveKey, running]

/-- The post office of the topic, which has the current key and the next number. -/
theorem postOffice_agrees (agree : Agree client enclave) (running : client.state = .running info)
    (world : World) :
    (∃ e, postOffice characters topic (client, world) = (.error e, (client, world))) ∨
      ∃ office after, postOffice characters topic (client, world) = (.ok office, (after, world)) ∧
        office.destinationPublicKey = info.encryptionKey ∧
        office.sequenceNumber = client.nextSequenceNumber topic ∧
        after.state = client.state ∧ after.clientPrivateKey = client.clientPrivateKey ∧
        ∀ other, other ≠ topic →
          after.postOffices.lookup other = client.postOffices.lookup other := by
  rw [nextSequenceNumber_running running]
  rcases @postOffice_cases World characters client info topic running world with
    threw | ⟨office, after, found, ⟨known, rfl⟩ | ⟨unknown, rfl, rfl⟩⟩
  · exact Or.inl threw
  · rw [known]
    have expected := agree.offices info running topic office known
    exact Or.inr ⟨office, after, found, expected, rfl, rfl, rfl, fun _ _ => rfl⟩
  · rw [unknown]
    refine Or.inr ⟨_, _, found, rfl, rfl, rfl, rfl, ?_⟩
    intro other different
    exact AList.lookup_insert_ne different

/-- A number is taken only for mail that is encrypted. -/
theorem encryptMail_agrees (agree : Agree client enclave) (running : client.state = .running info)
    (encryptable : ∀ calls, ∃ minSize, circumstances.minSize calls = some minSize ∧
      ∀ sequenceNumber, Producible maxArrayLength ⟨sequenceNumber, topic, envelope, none⟩
        minSize.toNat body none) (world : World) :
    (∃ e, encryptMail characters maxArrayLength circumstances.environment topic body envelope
        (client, world) = (.error e, (client, world))) ∨
      ∃ mail after, encryptMail characters maxArrayLength circumstances.environment topic body
          envelope (client, world) = (.ok mail, (after, circumstances.next world)) ∧
        Numbered client after info topic ∧ mail.destination = info.encryptionKey ∧
        mail.header.topic = topic ∧
        mail.header.sequenceNumber = client.nextSequenceNumber topic := by
  rcases postOffice_agrees agree running world with
    ⟨e, threw⟩ | ⟨office, middle, found, destination, number, state, key, others⟩
  · left
    exact ⟨e, Attempt.bind_error threw⟩
  · right
    obtain ⟨minSize, answered, producible⟩ := encryptable world.2
    let after := putPostOffice topic
      { office with sequenceNumber := office.sequenceNumber + 1, encryptCalled := true } middle
    have policy : circumstances.environment.minSize topic body.length world =
        (some minSize, circumstances.next world) := Prod.ext answered rfl
    have here : currentClient (after, circumstances.next world) =
        (.ok after, (after, circumstances.next world)) := rfl
    refine ⟨⟨office.destinationPublicKey, after.clientPrivateKey,
      ⟨office.sequenceNumber, topic, envelope, none⟩, body⟩, after,
      ?_, ?_, destination, rfl, number⟩
    · rw [encryptMail, Attempt.bind_ok found]
      refine (Attempt.bind_ok rfl).trans ?_
      refine (Attempt.bind_ok (callOrThrow_some policy after)).trans ?_
      rw [if_pos (producible office.sequenceNumber), Attempt.bind_ok here]
      rfl
    · refine ⟨state, key, ?_, ?_⟩
      · rw [← destination, ← number]
        exact AList.lookup_insert middle.postOffices
      · intro other different
        exact (AList.lookup_insert_ne different).trans (others other different)

namespace Numbered

variable (numbered : Numbered client after info topic) (running : client.state = .running info)

include numbered running

theorem nextSequenceNumber (other : JString) :
    after.nextSequenceNumber other =
      if other = topic then client.nextSequenceNumber topic + 1
      else client.nextSequenceNumber other := by
  rw [nextSequenceNumber_running (numbered.state.trans running)]
  split
  · rename_i same
    rw [same, numbered.office]
    rfl
  · rename_i different
    rw [numbered.others other different, nextSequenceNumber_running running]

theorem offices (agree : Agree client enclave) (other : JString) (office : PostOffice)
    (found : after.postOffices.lookup other = some office) :
    office.destinationPublicKey = info.encryptionKey := by
  by_cases same : other = topic
  · rw [same, numbered.office] at found
    cases found
    rfl
  · rw [numbered.others other same] at found
    exact agree.offices info running other office found

theorem agree_of (agree : Agree client enclave) {now : Enclave}
    (key : now.encryptionKey = enclave.encryptionKey) (usedKeys : now.usedKeys = enclave.usedKeys)
    (same : info.encryptionKey = enclave.encryptionKey →
      ∀ topic, now.expected topic = after.nextSequenceNumber topic)
    (changed : info.encryptionKey ≠ enclave.encryptionKey → ∀ topic, now.expected topic = 0)
    (delivered : ∀ entry ∈ now.delivered, entry.1.header.sequenceNumber = entry.2) :
    Agree after now := by
  have started := numbered.state.trans running
  have known := previousEnclaveKey_running started
  constructor
  · intro other closed
    rw [started] at closed
    cases closed
  · rw [numbered.clientPrivateKey]
    exact agree.curve
  · intro other again
    rw [started] at again
    cases again
    exact numbered.offices running agree
  · rw [key, usedKeys]
    exact agree.used
  · rw [known, usedKeys, ← previousEnclaveKey_running running]
    exact agree.known
  · intro current
    rw [known, key] at current
    exact same (Option.some.inj current)
  · intro old
    rw [known, key] at old
    exact changed fun current => old (congrArg some current)
  · exact delivered

/-- Mail that is encrypted to an old key does not count. -/
theorem agree_lost (agree : Agree client enclave)
    (old : info.encryptionKey ≠ enclave.encryptionKey) : Agree after enclave := by
  refine numbered.agree_of running agree rfl rfl (fun current => absurd current old) ?_
    agree.delivered
  intro _
  apply agree.changed
  rw [previousEnclaveKey_running running]
  exact fun current => old (Option.some.inj current)

/-- The enclave takes mail that is encrypted to its key, and both have counted it. -/
theorem agree_receive (agree : Agree client enclave)
    (current : info.encryptionKey = enclave.encryptionKey) (onTopic : mail.header.topic = topic)
    (number : mail.header.sequenceNumber = client.nextSequenceNumber topic) :
    (enclave.receive mail).1 = true ∧ Agree after (enclave.receive mail).2 := by
  have known : client.previousEnclaveKey = some enclave.encryptionKey := by
    rw [previousEnclaveKey_running running, current]
  have expects : mail.header.sequenceNumber = enclave.expected mail.header.topic := by
    rw [number, onTopic, agree.same known]
  rw [Enclave.receive, if_pos expects]
  refine ⟨rfl, numbered.agree_of running agree rfl rfl ?_ (fun old => absurd current old) ?_⟩
  · intro _ other
    rw [numbered.nextSequenceNumber running, Enclave.expected, onTopic]
    dsimp only
    by_cases same : other = topic
    · rw [if_pos same, same, Function.update_self, agree.same known]
    · rw [if_neg same, Function.update_of_ne same]
      exact agree.same known other
  · intro entry member
    rcases List.mem_append.mp member with before | last
    · exact agree.delivered entry before
    · rw [List.mem_singleton.mp last]
      exact expects

end Numbered

/-- A client that has found out about the new key starts every topic again. -/
theorem Agree.switchEnclave {newInfo : EnclaveInstanceInfo} (agree : Agree client enclave)
    (running : client.state = .running info) (changed : newInfo.encryptionKey ≠ info.encryptionKey)
    (downloaded : newInfo.encryptionKey = enclave.encryptionKey) :
    Agree (setState (.running newInfo) (resetPostOffices newInfo client)) enclave := by
  have unseen := agree.changed (by
    rw [previousEnclaveKey_running running, ← downloaded]
    exact fun same => changed (Option.some.inj same).symm)
  have lookup : ∀ topic, (setState (.running newInfo)
      (resetPostOffices newInfo client)).postOffices.lookup topic =
        (client.postOffices.lookup topic).map fun _ => ⟨newInfo.encryptionKey, 0, false⟩ :=
    fun topic => AssocMap.lookup_replaceAll _ client.postOffices topic
  have known : (setState (.running newInfo) (resetPostOffices newInfo client)).previousEnclaveKey =
      some newInfo.encryptionKey := previousEnclaveKey_running rfl
  constructor
  · intro other closed
    cases closed
  · exact agree.curve
  · rintro other ⟨⟩ topic office found
    rw [lookup] at found
    obtain ⟨before, -, rfl⟩ := Option.map_eq_some_iff.mp found
    rfl
  · exact agree.used
  · intro key same
    rw [known, downloaded] at same
    cases same
    exact agree.used
  · intro _ topic
    rw [unseen, nextSequenceNumber_running rfl, lookup, Option.map_map]
    cases client.postOffices.lookup topic with
    | none => rfl
    | some office => rfl
  · intro different
    rw [known, downloaded] at different
    exact absurd rfl different
  · exact agree.delivered

end Attempt

/-! ## What the operations keep -/

section Operations

variable {α β : Type} {characters : Characters} {maxArrayLength : Nat} {client : EnclaveClient}
  {enclave : Enclave} {info : EnclaveInstanceInfo} {circumstances : Circumstances} {world : World}

/-- The method keeps the agreement, whether it returns or throws. -/
def Agrees (method : Method World α) : Prop :=
  Attempt.Preserves (fun before after => Agree before.1 before.2.1 → Agree after.1 after.2.1) method

theorem Agrees.pure (value : α) : Agrees (Pure.pure value) := fun _ agree => agree

theorem Agrees.throw (exception : ClientException) : Agrees (α := α) (Attempt.throw exception) :=
  fun _ agree => agree

theorem Agrees.bind {method : Method World α} {next : α → Method World β} (first : Agrees method)
    (second : ∀ value, Agrees (next value)) : Agrees (method >>= next) :=
  Attempt.Preserves.bind (fun _ _ _ before after agree => after (before agree)) first second

theorem Agrees.acceptStateIds (header : Mail.StateIdHeader) : Agrees (acceptStateIds header) := by
  refine Agrees.bind (fun _ agree => agree) fun client => ?_
  dsimp only
  split
  · refine Agrees.bind (fun _ agree => agree.of_seen _) fun _ => ?_
    split
    · exact Agrees.throw _
    · exact Agrees.pure _
  · exact Agrees.pure _

theorem Agrees.processMail (received : Received) : Agrees (processMail received) := by
  cases received with
  | mailDecryption => exact Agrees.throw _
  | otherSender => exact Agrees.throw _
  | opened privateHeader =>
      cases privateHeader with
      | none => exact Agrees.pure _
      | some privateHeader =>
          rw [Lifecycle.processMail]
          split
          · exact Agrees.throw _
          · exact Agrees.acceptStateIds _

theorem redownload_agrees (agree : Agree client world.1) (running : client.state = .running info) :
    Agree (redownload circumstances.environment info (client, world)).2.1
      (redownload circumstances.environment info (client, world)).2.2.1 := by
  let newInfo : EnclaveInstanceInfo := { circumstances.enclaveInstanceInfo world.2 with
    encryptionKey := (circumstances.next world).1.encryptionKey }
  have downloads : circumstances.environment.enclaveInstanceInfo world =
      (some newInfo, circumstances.next world) := rfl
  have now := agree.next circumstances
  rw [redownload, Attempt.bind_ok (callOrThrow_some downloads client)]
  by_cases same : newInfo.encryptionKey = info.encryptionKey
  · rw [if_pos same]
    exact now
  · have here : currentClient (client, circumstances.next world) =
        (.ok client, (client, circumstances.next world)) := rfl
    rw [if_neg same, switchEnclave, Attempt.bind_ok here]
    cases client.enclaveConstraint.checkAgainst newInfo with
    | ok value => exact now.switchEnclave running same rfl
    | error e =>
        cases e with
        | invalidEnclave message => exact now
        | criteria error => exact now

theorem sendMail_current {mail : SentMail}
    (current : mail.destination = (circumstances.next world).1.encryptionKey)
    (accepted : ((circumstances.next world).1.receive mail).1 = true) :
    call (circumstances.environment.sendMail mail) (client, world) =
      (.ok (.response (circumstances.response world.2)),
        (client,
          (((circumstances.next world).1.receive mail).2, (circumstances.next world).2))) := by
  rw [call_apply]
  simp only [Circumstances.environment, Circumstances.sendMail, if_pos current, if_pos accepted]

theorem sendMail_old {mail : SentMail}
    (old : mail.destination ≠ (circumstances.next world).1.encryptionKey) :
    call (circumstances.environment.sendMail mail) (client, world) =
      (.ok .mailDecryption, (client, circumstances.next world)) := by
  rw [call_apply]
  simp only [Circumstances.environment, Circumstances.sendMail, if_neg old]

theorem started_redownload (started : Started client) :
    Started (redownload circumstances.environment info (client, world)).2.1 := by
  have kept : Keeps Started (redownload circumstances.environment info) :=
    Keeps.redownload circumstances.environment (fun _ _ started => started)
      (fun _ newInfo _ => ⟨newInfo, rfl⟩) info
  exact kept (client, world) started

/-- The number of mail that the enclave cannot decrypt is counted by neither of them. -/
theorem sendAttempts_agrees {topic : JString} {body : Bytes} {envelope : Option Bytes}
    (encryptable : ∀ calls, ∃ minSize, circumstances.minSize calls = some minSize ∧
      ∀ sequenceNumber, Producible maxArrayLength ⟨sequenceNumber, topic, envelope, none⟩
        minSize.toNat body none) (attempts : Nat) (state : EnclaveClient × World)
    (started : Started state.1) (agree : Agree state.1 state.2.1) :
    Agree (sendAttempts characters maxArrayLength circumstances.environment topic body envelope
        attempts state).2.1
      (sendAttempts characters maxArrayLength circumstances.environment topic body envelope
        attempts state).2.2.1 := by
  induction attempts generalizing state with
  | zero => exact agree
  | succ attempts ih =>
      obtain ⟨client, world⟩ := state
      obtain ⟨info, running⟩ := started
      rw [sendAttempts]
      rcases @encryptMail_agrees characters maxArrayLength client _ info topic body envelope
          circumstances agree running encryptable world with
        ⟨e, threw⟩ | ⟨mail, after, encrypted, numbered, destination, onTopic, number⟩
      · rw [Attempt.bind_error threw]
        exact agree
      · have later := (agree.next circumstances).next circumstances
        have stillRunning := numbered.state.trans running
        rw [Attempt.bind_ok encrypted]
        by_cases current : mail.destination =
            (circumstances.next (circumstances.next world)).1.encryptionKey
        · obtain ⟨accepted, counted⟩ := numbered.agree_receive running later
            (destination.symm.trans current) onTopic number
          rw [Attempt.bind_ok (sendMail_current current accepted)]
          cases circumstances.response (circumstances.next world).2 with
          | none => exact counted
          | some received => exact Agrees.processMail received (after, _) counted
        · have lost := numbered.agree_lost running later
            (fun same => current (destination.trans same))
          rw [Attempt.bind_ok (sendMail_old current)]
          generalize circumstances.next (circumstances.next world) = now at lost
          have here : currentClient (after, now) = (.ok after, (after, now)) := rfl
          have recorded : ofExcept (currentOrPreviousRunningState (.running info)) (after, now) =
              (.ok info, (after, now)) := rfl
          dsimp only
          rw [Attempt.bind_ok here, stillRunning, Attempt.bind_ok recorded]
          have agreed := @redownload_agrees after info circumstances now lost stillRunning
          have runs := @started_redownload after info circumstances now ⟨info, stillRunning⟩
          cases downloaded : redownload circumstances.environment info (after, now) with
          | mk outcome next =>
              rw [downloaded] at agreed runs
              cases outcome with
              | error e =>
                  rw [Attempt.bind_error downloaded]
                  exact agreed
              | ok value =>
                  rw [Attempt.bind_ok downloaded]
                  exact ih next runs agreed

theorem sendMail_agrees {topic : JString} {body : Bytes} {envelope : Option Bytes}
    (encryptable : ∀ calls, ∃ minSize, circumstances.minSize calls = some minSize ∧
      ∀ sequenceNumber, Producible maxArrayLength ⟨sequenceNumber, topic, envelope, none⟩
        minSize.toNat body none) (agree : Agree client world.1) :
    Agree (Lifecycle.sendMail characters maxArrayLength circumstances.environment topic body
        envelope (client, world)).2.1
      (Lifecycle.sendMail characters maxArrayLength circumstances.environment topic body
        envelope (client, world)).2.2.1 := by
  have here : currentClient (client, world) = (.ok client, (client, world)) := rfl
  rw [Lifecycle.sendMail, Attempt.bind_ok here]
  cases state : client.state with
  | new previous => exact agree
  | closed running => exact agree
  | running info =>
      exact sendAttempts_agrees encryptable MAX_RETRY_ATTEMPTS (client, world) ⟨info, state⟩ agree

/-! ### Starting -/

theorem Agree.withRestored {previous : Previous} (agree : Agree client enclave)
    (new : client.state = .new previous) (taken : List (Sigma fun _ : JString => BitVec 64)) :
    Agree (client.withRestored info taken) enclave := by
  have still : (client.withRestored info taken).state = .new previous := new
  refine { agree with offices := ?_, same := ?_ }
  · intro other running
    rw [still] at running
    cases running
  · intro known topic
    have number := agree.same known topic
    simp only [EnclaveClient.nextSequenceNumber, new] at number
    simp only [EnclaveClient.nextSequenceNumber, still]
    exact number

/-- A client that starts takes up its numbers if the enclave still has the key that they are for. -/
theorem Agree.started {previous : Previous} (agree : Agree client enclave)
    (new : client.state = .new previous) (empty : client.postOffices = ∅)
    (downloaded : info.encryptionKey = enclave.encryptionKey) :
    Agree (setState (.running info) (client.withRestored info (previous.numbersFor info)))
      enclave := by
  have lookup := lookup_withRestored empty previous info
  have before : client.previousEnclaveKey = previous.enclaveKey := by
    simp only [EnclaveClient.previousEnclaveKey, new]
  have numbers : ∀ topic, client.nextSequenceNumber topic =
      (previous.sequenceNumbers.lookup topic).getD 0 := by
    intro topic
    simp only [EnclaveClient.nextSequenceNumber, new]
  have known : (setState (.running info)
      (client.withRestored info (previous.numbersFor info))).previousEnclaveKey =
        some info.encryptionKey := previousEnclaveKey_running rfl
  constructor
  · intro other closed
    cases closed
  · exact agree.curve
  · rintro other ⟨⟩ topic office found
    have same := (lookup topic).symm.trans found
    split at same
    · obtain ⟨number, -, rfl⟩ := Option.map_eq_some_iff.mp same
      rfl
    · cases same
  · exact agree.used
  · intro key same
    rw [known, downloaded] at same
    cases same
    exact agree.used
  · intro _ topic
    rw [nextSequenceNumber_running rfl]
    refine Eq.trans ?_ (congrArg (fun office => (office.map PostOffice.sequenceNumber).getD 0)
      (lookup topic).symm)
    by_cases unchanged : previous.enclaveKey = some info.encryptionKey
    · rw [if_pos unchanged, agree.same (by rw [before, unchanged, downloaded]), numbers]
      cases previous.sequenceNumbers.lookup topic with
      | none => rfl
      | some number => rfl
    · have changed : client.previousEnclaveKey ≠ some enclave.encryptionKey := by
        rw [before, ← downloaded]
        exact unchanged
      rw [if_neg unchanged, agree.changed changed]
      rfl
  · intro different
    rw [known, downloaded] at different
    exact absurd rfl different
  · exact agree.delivered

theorem start_agrees {previous : Previous} (agree : Agree client world.1)
    (new : client.state = .new previous) (empty : client.postOffices = ∅) :
    Agree (start characters circumstances.environment (client, world)).2.1
      (start characters circumstances.environment (client, world)).2.2.1 := by
  let info : EnclaveInstanceInfo := { circumstances.enclaveInstanceInfo world.2 with
    encryptionKey := (circumstances.next world).1.encryptionKey }
  have downloads : circumstances.environment.enclaveInstanceInfo world =
      (some info, circumstances.next world) := rfl
  have now := agree.next circumstances
  cases checked : client.enclaveConstraint.checkAgainst info with
  | error e =>
      rw [start_unaccepted new downloads checked]
      exact now
  | ok value =>
      rw [start_checked new downloads checked]
      obtain ⟨taken, result, resumed, whole, -⟩ := @resumePostOffices_eq World characters previous
        info client (circumstances.next world)
      cases result with
      | error e =>
          rw [Attempt.bind_error resumed]
          exact now.withRestored new taken
      | ok value =>
          rw [Attempt.bind_ok resumed, whole rfl]
          have restored : Agree (client.withRestored info (previous.numbersFor info))
              (circumstances.next world).1 :=
            now.withRestored new (previous.numbersFor info)
          have left := restored.next circumstances
          cases connects : circumstances.connects (circumstances.next world).2 with
          | false =>
              have refused : circumstances.environment.connect (circumstances.next world) =
                  (none, circumstances.next (circumstances.next world)) := by
                simp only [Circumstances.environment, connects, Bool.false_eq_true, if_false]
              rw [Attempt.bind_error (callOrThrow_none refused _)]
              exact left
          | true =>
              have connected : circumstances.environment.connect (circumstances.next world) =
                  (some (), circumstances.next (circumstances.next world)) := by
                simp only [Circumstances.environment, connects, if_true]
              rw [Attempt.bind_ok (callOrThrow_some connected _)]
              exact (now.started new empty rfl).next circumstances

theorem sound_started (sound : Sound client) :
    Sound (start characters circumstances.environment (client, world)).2.1 :=
  (starting_start characters circumstances.environment sound world).sound sound

/-! ### Saving and restoring -/

theorem Agree.recovered (sound : Sound client) (agree : Agree client enclave) :
    Agree client.recovered enclave := by
  have lossless : Lossless client client.recovered :=
    (recovered_lossless_iff sound).mpr fun closed => absurd closed (agree.notClosed none)
  constructor
  · intro running closed
    cases closed
  · exact agree.curve
  · intro info running
    cases running
  · exact agree.used
  · rw [lossless.previousEnclaveKey]
    exact agree.known
  · rw [lossless.previousEnclaveKey]
    intro known topic
    rw [lossless.nextSequenceNumber, agree.same known]
  · rw [lossless.previousEnclaveKey]
    exact agree.changed
  · exact agree.delivered

/-- The two agree, and the client is one that operations have made. -/
def Sane (state : EnclaveClient × Enclave) : Prop := Sound state.1 ∧ Agree state.1 state.2

theorem sane_replace (reads : ReadsAscii characters.digit) (sane : Sane (client, enclave)) :
    Sane (replace characters circumstances client enclave) := by
  obtain ⟨sound, agree⟩ := sane
  obtain ⟨key, curve⟩ := agree.curve
  rw [replace]
  cases saves : client.save with
  | error e => exact ⟨sound, agree⟩
  | ok saved =>
      cases restores : restoreState characters saved with
      | error e =>
          simp only [restores]
          exact ⟨sound, agree⟩
      | ok restored =>
          simp only [restores]
          have fresh := restoreState_fresh restores
          have same : restored = client.recovered := by
            rw [restoreState_save curve saves reads] at restores
            cases valid : client.enclaveConstraint.checkCriteriaValid with
            | error e =>
                rw [valid] at restores
                cases restores
            | ok value =>
                rw [valid] at restores
                cases restores
                rfl
          have agreed : Agree restored enclave := by
            rw [same]
            exact agree.recovered sound
          have agrees := @start_agrees characters restored circumstances (enclave, 0)
            restored.created agreed fresh.state fresh.postOffices
          exact ⟨sound_started fresh.sound, agrees⟩

/-! ## All runs -/

theorem sane_step (reads : ReadsAscii characters.digit)
    {state next : EnclaveClient × Enclave} {operation : Operation} (sane : Sane state)
    (encryptable : Encryptable maxArrayLength state operation)
    (stepped : step characters maxArrayLength state operation = some next) : Sane next := by
  obtain ⟨client, enclave⟩ := state
  obtain ⟨sound, agree⟩ := sane
  cases operation with
  | sendMail topic body envelope circumstances =>
      cases stepped
      exact ⟨sound.operated characters maxArrayLength circumstances.environment
        (.sendMail topic body envelope) (enclave, 0), sendMail_agrees encryptable agree⟩
  | restart encryptionKey =>
      cases stepped
      exact ⟨sound, agree.restart encryptionKey⟩
  | replace circumstances =>
      cases stepped
      exact sane_replace reads ⟨sound, agree⟩

theorem sane_new (clientPrivateKey : Curve25519PrivateKey) (enclaveConstraint : EnclaveConstraint)
    (encryptionKey : Curve25519PublicKey) :
    Sane (.new (.curve25519 clientPrivateKey) enclaveConstraint, .new encryptionKey) := by
  refine ⟨⟨?_, fun _ _ _ => rfl⟩, ?_⟩
  · intro previous new
    cases new
    rfl
  constructor
  · intro running closed
    cases closed
  · exact ⟨clientPrivateKey, rfl⟩
  · intro info running
    cases running
  · exact List.mem_cons_self
  · intro key known
    cases known
  · intro known
    cases known
  · intro _ topic
    have first : (-1 : BitVec 64) + 1 = 0 := by decide
    exact first
  · intro entry member
    cases member

theorem sane_initial (circumstances : Circumstances) (clientPrivateKey : Curve25519PrivateKey)
    (enclaveConstraint : EnclaveConstraint) (encryptionKey : Curve25519PublicKey) :
    Sane (initial characters circumstances clientPrivateKey enclaveConstraint encryptionKey) := by
  obtain ⟨sound, agree⟩ := sane_new clientPrivateKey enclaveConstraint encryptionKey
  exact ⟨sound_started sound, @start_agrees characters _ circumstances (_, 0) _ agree rfl rfl⟩

/-- As long as no number is taken for mail that cannot be encrypted, the enclave gets the number
that it expects with all the mail that it can decrypt. -/
theorem always_inSequence (reads : ReadsAscii characters.digit) (maxArrayLength : Nat)
    (circumstances : Circumstances) (clientPrivateKey : Curve25519PrivateKey)
    (enclaveConstraint : EnclaveConstraint) (encryptionKey : Curve25519PublicKey)
    {operations : List Operation}
    (encryptable : Meets (step characters maxArrayLength) (Encryptable maxArrayLength)
      (initial characters circumstances clientPrivateKey enclaveConstraint encryptionKey)
      operations) :
    Always (step characters maxArrayLength) InSequence
      (initial characters circumstances clientPrivateKey enclaveConstraint encryptionKey)
      operations :=
  always_of_meets (fun sane condition stepped => sane_step reads sane condition stepped)
    (fun sane => sane.2.delivered)
    (sane_initial circumstances clientPrivateKey enclaveConstraint encryptionKey) encryptable

end Operations

/-! ### A size policy that throws once -/

namespace FailingPolicy

def quiet : Circumstances where
  restart _ := none
  enclaveInstanceInfo _ := enclaveWithKey 9
  connects _ := true
  minSize _ := some 0
  response _ := none

def failing : Circumstances := { quiet with minSize := fun _ => none }

def repeatedPrivateKey (byte : UInt8) : Curve25519PrivateKey :=
  ⟨List.replicate 32 byte, size_repeated byte⟩

def started : EnclaveClient × Enclave :=
  initial exampleCharacters quiet (repeatedPrivateKey 7) exampleConstraint (repeatedKey 9)

def send (circumstances : Circumstances) : Operation := .sendMail [116] [] none circumstances

def numbers (state : EnclaveClient × Enclave) : List (BitVec 64 × BitVec 64) :=
  state.2.delivered.map fun entry => (entry.1.header.sequenceNumber, entry.2)

theorem encryptable_quiet (state : EnclaveClient × Enclave) :
    Encryptable 2147483647 state (send quiet) := by
  intro calls
  refine ⟨0, rfl, ?_⟩
  intro sequenceNumber
  have producible : Producible 2147483647 ⟨0, [116], none, none⟩ 0 [] none := by decide
  exact producible

/-- The enclave restarts, and the client is replaced, between two mails each. -/
def restarting : List Operation :=
  [send quiet, send quiet, .restart (repeatedKey 8), send quiet, send quiet, .replace quiet,
    send quiet]

end FailingPolicy

open FailingPolicy in
theorem always_inSequence_restarting :
    ∃ final, run (step exampleCharacters 2147483647) started restarting = some final ∧
      numbers final = [(0, 0), (1, 1), (0, 0), (1, 1), (2, 2)] ∧ InSequence final := by
  have observed : (run (step exampleCharacters 2147483647) started restarting).map numbers =
      some [(0, 0), (1, 1), (0, 0), (1, 1), (2, 2)] := by decide +kernel
  obtain ⟨final, ran, seen⟩ := Option.map_eq_some_iff.mp observed
  refine ⟨final, ran, seen, ?_⟩
  have encryptable : Meets (step exampleCharacters 2147483647) (Encryptable 2147483647) started
      restarting := by
    apply Meets.of_forall
    intro operation member state
    simp only [restarting, List.mem_cons, List.not_mem_nil, or_false] at member
    rcases member with rfl | rfl | rfl | rfl | rfl | rfl | rfl
    · exact encryptable_quiet state
    · exact encryptable_quiet state
    · trivial
    · exact encryptable_quiet state
    · exact encryptable_quiet state
    · trivial
    · exact encryptable_quiet state
  exact always_inSequence asciiDigit_readsAscii 2147483647 quiet _ exampleConstraint
    (repeatedKey 9) encryptable restarting [] final (List.append_nil _).symm ran

open FailingPolicy in
/-- The number 0 is taken when the policy throws, so that the enclave, which expects it, gets 1. -/
theorem number_lost :
    ¬∀ (circumstances : Circumstances) (clientPrivateKey : Curve25519PrivateKey)
      (enclaveConstraint : EnclaveConstraint) (encryptionKey : Curve25519PublicKey)
      (operations : List Operation),
      Always (step exampleCharacters 2147483647) InSequence
        (initial exampleCharacters circumstances clientPrivateKey enclaveConstraint encryptionKey)
        operations := by
  intro holds
  have observed : (run (step exampleCharacters 2147483647) started [send failing, send quiet]).map
      numbers = some [(1, 0)] := by decide +kernel
  obtain ⟨final, ran, seen⟩ := Option.map_eq_some_iff.mp observed
  have inSequence : InSequence final :=
    holds quiet _ exampleConstraint (repeatedKey 9) [send failing, send quiet]
      [send failing, send quiet]
      [] final rfl ran
  obtain ⟨entry, rest, delivered, numbered, -⟩ := List.map_eq_cons_iff.mp seen
  have same := inSequence entry (by rw [delivered]; exact List.mem_cons_self)
  have one := congrArg Prod.fst numbered
  have zero := congrArg Prod.snd numbered
  dsimp only at one zero
  rw [one, zero] at same
  exact absurd same (by decide)

end Conclave.Client.Lifecycle.SequenceAgreement
