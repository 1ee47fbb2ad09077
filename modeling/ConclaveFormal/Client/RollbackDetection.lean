import ConclaveFormal.Client.AdversarialHost
import ConclaveFormal.Lib.Indices
import Mathlib.Data.List.Induction

/-!
# Rollback detection is sound

If a client accepts a new state ID without an exception, the receive it had
accepted before is in the history of the state the new one ran in.  Every state
ID an enclave holds as the last one of a client belongs to a receive in the
enclave's history; headers, sealed blobs and restored states pass that on, and
fresh IDs tell the receives apart.
-/

set_option autoImplicit false

namespace Conclave.Client

open Conclave.Lib
open Conclave.Mail (EnclaveStateId Curve25519PublicKey StateIdHeader)
open Conclave.Enclave (EnclaveInstance ReceiveEnd ReceiveContext PersistentState)

/-! ## State IDs and the receives they belong to -/

def stateIdOf (receives : List Receive) (receive : Nat) : Option EnclaveStateId :=
  (receives[receive]?).map Receive.stateId

/-- Whatever is held as a last seen ID belongs to a receive in the history. -/
def Known (receives : List Receive) (history : List Nat)
    (lastSeen : Curve25519PublicKey → Option EnclaveStateId) : Prop :=
  ∀ client stateId, lastSeen client = some stateId →
    ∃ receive ∈ history, stateIdOf receives receive = some stateId

theorem stateIdOf_append {receives : List Receive} {receive : Nat} {stateId : EnclaveStateId}
    (found : stateIdOf receives receive = some stateId) (later : List Receive) :
    stateIdOf (receives ++ later) receive = some stateId := by
  obtain ⟨record, recordEq, rfl⟩ := Option.map_eq_some_iff.mp found
  exact Option.map_eq_some_iff.mpr
    ⟨record, List.getElem?_append_left (List.getElem?_eq_some_iff.mp recordEq).1 ▸ recordEq, rfl⟩

theorem getElem?_append_some {receives : List Receive} {index : Nat} {receive : Receive}
    (found : receives[index]? = some receive) (later : List Receive) :
    (receives ++ later)[index]? = some receive :=
  List.getElem?_append_left (List.getElem?_eq_some_iff.mp found).1 ▸ found

theorem Known.append {receives : List Receive} {history : List Nat}
    {lastSeen : Curve25519PublicKey → Option EnclaveStateId}
    (known : Known receives history lastSeen) (later : List Receive) :
    Known (receives ++ later) history lastSeen := by
  intro client stateId held
  obtain ⟨receive, member, found⟩ := known client stateId held
  exact ⟨receive, member, stateIdOf_append found later⟩

theorem Known.none (receives : List Receive) (history : List Nat) :
    Known receives history fun _ => none := by
  intro client stateId held
  cases held

/-- A receive that records its ID becomes part of the history. -/
theorem Known.record {receives : List Receive} {history : List Nat} {enclave : EnclaveInstance}
    {receive : Nat} {receiveContext : ReceiveContext}
    (known : Known receives history enclave.lastSeen)
    (current : stateIdOf receives receive = some receiveContext.stateId) :
    Known receives (history ++ [receive]) fun client =>
      (enclave.updateLastSeenStateIds receiveContext).lastSeenStateIds.lookup client := by
  intro client other held
  simp only [EnclaveInstance.lookup_updateLastSeenStateIds] at held
  split at held
  · cases held
    exact ⟨receive, by simp, current⟩
  · obtain ⟨earlier, member, found⟩ := known client other held
    exact ⟨earlier, List.mem_append_left _ member, found⟩

/-! ## The invariant -/

structure RunningEnclave.Sound (receives : List Receive) (running : RunningEnclave) : Prop where
  known : Known receives running.history running.enclave.lastSeen
  current : ∀ receiveContext, running.enclave.currentReceiveContext = some receiveContext →
    ∃ receive, receives[running.receive]? = some receive ∧
      receive.stateId = receiveContext.stateId ∧ receive.history = running.history

def SealedBlob.Sound (receives : List Receive) (stored : SealedBlob) : Prop :=
  Known receives stored.history (EnclaveInstance.start (some stored.plaintext)).lastSeen

/-- A mail has no private header, or the one of the receive it was created in. -/
inductive CreatedMail.Sound (receives : List Receive) (mail : CreatedMail) : Prop where
  | plain (noHeader : mail.privateHeader = none) (noReceive : mail.receive = none)
  | session (number : Nat) (receive : Receive) (previous : Option EnclaveStateId)
      (created : mail.receive = some number) (found : receives[number]? = some receive)
      (header : mail.privateHeader = some (StateIdHeader.write ⟨receive.stateId, previous⟩))
      (known : ∀ stateId, previous = some stateId →
        ∃ earlier ∈ receive.history, stateIdOf receives earlier = some stateId)

/-- The receive whose state ID was accepted last. -/
def lastReceive (accepted : List Acceptance) : Option Nat :=
  (accepted.filterMap fun acceptance => acceptance.mail.receive).getLast?

/-- A state ID that was accepted without an exception extends what the client
had accepted before. -/
def Linked (receives : List Receive) (accepted : List Acceptance) : Prop :=
  ∀ earlier next later, accepted = earlier ++ next :: later → next.rollback = false →
    ∀ before after, lastReceive earlier = some before → next.mail.receive = some after →
      before ≠ after → ∃ receive, receives[after]? = some receive ∧ before ∈ receive.history

structure ClientRecord.Sound (receives : List Receive) (record : ClientRecord) : Prop where
  lastSeen : record.client.lastSeenStateId =
    (lastReceive record.accepted).bind (stateIdOf receives)
  numbered : ∀ receive, lastReceive record.accepted = some receive → receive < receives.length
  linked : Linked receives record.accepted

structure World.Sound (world : World) : Prop where
  fresh : (world.receives.map Receive.stateId).Nodup
  enclaves : ∀ running ∈ world.enclaves, running.Sound world.receives
  sealedBlobs : ∀ stored ∈ world.sealedBlobs, stored.Sound world.receives
  mails : ∀ mail ∈ world.mails, mail.Sound world.receives
  clients : ∀ record ∈ world.clients, record.Sound world.receives

/-! ## Later receives change nothing -/

theorem RunningEnclave.Sound.append {receives : List Receive} {running : RunningEnclave}
    (sound : running.Sound receives) (later : List Receive) :
    running.Sound (receives ++ later) := by
  refine ⟨sound.known.append later, ?_⟩
  intro receiveContext receiving
  obtain ⟨receive, found, same⟩ := sound.current receiveContext receiving
  exact ⟨receive, getElem?_append_some found later, same⟩

theorem SealedBlob.Sound.append {receives : List Receive} {stored : SealedBlob}
    (sound : stored.Sound receives) (later : List Receive) : stored.Sound (receives ++ later) :=
  Known.append sound later

theorem CreatedMail.Sound.append {receives : List Receive} {mail : CreatedMail}
    (sound : mail.Sound receives) (later : List Receive) : mail.Sound (receives ++ later) := by
  cases sound with
  | plain noHeader noReceive => exact .plain noHeader noReceive
  | session number receive previous created found header known =>
      refine .session number receive previous created (getElem?_append_some found later) header ?_
      intro stateId held
      obtain ⟨earlier, member, earlierFound⟩ := known stateId held
      exact ⟨earlier, member, stateIdOf_append earlierFound later⟩

theorem Linked.append {receives : List Receive} {accepted : List Acceptance}
    (linked : Linked receives accepted) (later : List Receive) :
    Linked (receives ++ later) accepted := by
  intro earlier next rest split silent before after last created different
  obtain ⟨receive, found, member⟩ :=
    linked earlier next rest split silent before after last created different
  exact ⟨receive, getElem?_append_some found later, member⟩

theorem ClientRecord.Sound.append {receives : List Receive} {record : ClientRecord}
    (sound : record.Sound receives) (later : List Receive) :
    record.Sound (receives ++ later) := by
  refine ⟨?_, ?_, sound.linked.append later⟩
  · rw [sound.lastSeen]
    cases last : lastReceive record.accepted with
    | none => rfl
    | some receive =>
        have bound := sound.numbered receive last
        simp [stateIdOf, List.getElem?_append_left bound]
  · intro receive last
    have bound := sound.numbered receive last
    simp only [List.length_append]
    omega

/-! ## Steps of an enclave -/

theorem World.Sound.setEnclave {world : World} (sound : world.Sound) (index : Nat)
    {running : RunningEnclave} (next : running.Sound world.receives) :
    (world.setEnclave index running).Sound := by
  refine { sound with enclaves := ?_ }
  intro other member
  rcases List.mem_or_eq_of_mem_set member with old | rfl
  · exact sound.enclaves other old
  · exact next

theorem World.Sound.startEnclave {world : World} (sound : world.Sound)
    (sealedState : Option Bytes) : (world.startEnclave sealedState).Sound world.receives := by
  unfold World.startEnclave
  split
  · refine ⟨Known.none _ _, ?_⟩
    intro receiveContext receiving
    cases receiving
  · rename_i stored found
    obtain ⟨bytes, _, unsealed⟩ := Option.bind_eq_some_iff.mp found
    have member : stored ∈ world.sealedBlobs := List.mem_of_find?_eq_some unsealed
    refine ⟨sound.sealedBlobs stored member, ?_⟩
    intro receiveContext receiving
    cases receiving

theorem World.Sound.beginReceive {world : World} (sound : world.Sound) {index : Nat}
    {running : RunningEnclave} (own : running.Sound world.receives) {stateId : EnclaveStateId}
    (new : ∀ receive ∈ world.receives, receive.stateId ≠ stateId) :
    (world.beginReceive index running stateId).Sound := by
  unfold World.beginReceive
  split
  · exact sound
  · rename_i enclave began
    obtain ⟨_, rfl⟩ := EnclaveInstance.beginReceive_eq_some began
    refine ⟨?_, ?_, ?_, ?_, ?_⟩
    · change ((world.receives ++ [_]).map Receive.stateId).Nodup
      rw [List.map_append, List.map_singleton, List.nodup_append]
      refine ⟨sound.fresh, List.nodup_singleton _, ?_⟩
      intro earlier member _ last
      obtain ⟨receive, old, rfl⟩ := List.mem_map.mp member
      rw [List.mem_singleton.mp last]
      exact new receive old
    · intro other member
      rcases List.mem_or_eq_of_mem_set member with old | rfl
      · exact (sound.enclaves other old).append _
      · refine ⟨own.known.append _, ?_⟩
        intro receiveContext receiving
        cases receiving
        exact ⟨_, List.getElem?_concat_length, rfl, rfl⟩
    · intro stored member
      exact (sound.sealedBlobs stored member).append _
    · intro mail member
      exact (sound.mails mail member).append _
    · intro record member
      exact (sound.clients record member).append _

theorem RunningEnclave.Sound.privateHeader {receives : List Receive} {running : RunningEnclave}
    (sound : running.Sound receives) (recipient : Curve25519PublicKey) :
    RunningEnclave.Sound receives
      { running with enclave := (running.enclave.privateHeader recipient).2 } := by
  cases receiving : running.enclave.currentReceiveContext with
  | none =>
      rw [EnclaveInstance.privateHeader_idle receiving]
      exact sound
  | some receiveContext =>
      rw [EnclaveInstance.privateHeader_receiving receiving]
      refine ⟨sound.known, ?_⟩
      intro other otherEq
      cases otherEq
      exact sound.current receiveContext receiving

theorem RunningEnclave.Sound.createdMail {receives : List Receive} {running : RunningEnclave}
    (sound : running.Sound receives) (encryptedMail : Bytes) (index : Nat)
    (recipient : Curve25519PublicKey) :
    CreatedMail.Sound receives
      ⟨encryptedMail, index, recipient, (running.enclave.privateHeader recipient).1,
        (running.enclave.privateHeader recipient).1.map fun _ => running.receive⟩ := by
  cases receiving : running.enclave.currentReceiveContext with
  | none =>
      rw [EnclaveInstance.privateHeader_idle receiving]
      exact .plain rfl rfl
  | some receiveContext =>
      rw [EnclaveInstance.privateHeader_receiving receiving]
      obtain ⟨receive, found, sameId, sameHistory⟩ := sound.current receiveContext receiving
      refine .session running.receive receive (running.enclave.lastSeen recipient) rfl found ?_ ?_
      · rw [sameId]
      · intro stateId held
        rw [sameHistory]
        exact sound.known recipient stateId held

theorem World.Sound.createMail {world : World} (sound : world.Sound) {index : Nat}
    {running : RunningEnclave} (own : running.Sound world.receives)
    (recipient : Curve25519PublicKey) (encryptedMail : Option Bytes) :
    (world.createMail index running recipient encryptedMail).Sound := by
  have set := sound.setEnclave index (own.privateHeader recipient)
  cases encryptedMail with
  | none => exact set
  | some encryptedMail =>
      refine { set with mails := ?_ }
      intro mail member
      rcases List.mem_append.mp member with old | new
      · exact sound.mails mail old
      · rw [List.mem_singleton.mp new]
        exact own.createdMail encryptedMail index recipient

/-- The end of a receive: its ID is known from then on, in the enclave and in
the blob it has sealed. -/
theorem RunningEnclave.Sound.endReceive {receives : List Receive} {running : RunningEnclave}
    (sound : running.Sound receives) {receiveContext : ReceiveContext}
    (receiving : running.enclave.currentReceiveContext = some receiveContext)
    (maxPersistentMapSize : Int) (ending : ReceiveEnd) :
    ∀ result enclave, running.enclave.endReceive receiveContext maxPersistentMapSize ending =
        (result, enclave) →
      let history :=
        if EnclaveInstance.reachesSealing receiveContext ending then
          running.history ++ [running.receive]
        else running.history
      RunningEnclave.Sound receives ⟨enclave, running.receive, history⟩ ∧
        ∀ plaintext blob, result = .ok plaintext →
          SealedBlob.Sound receives ⟨blob, plaintext, history⟩ := by
  intro result enclave ended history
  obtain ⟨receive, found, sameId, _⟩ := sound.current receiveContext receiving
  have current : stateIdOf receives running.receive = some receiveContext.stateId := by
    rw [stateIdOf, found, Option.map_some, sameId]
  cases reaches : EnclaveInstance.reachesSealing receiveContext ending with
  | false =>
      have historyEq : history = running.history := by simp [history, reaches]
      obtain ⟨error, endedEq⟩ :=
        EnclaveInstance.endReceive_stopped running.enclave maxPersistentMapSize reaches
      rw [endedEq] at ended
      cases ended
      refine ⟨⟨?_, ?_⟩, ?_⟩
      · rw [historyEq]
        exact sound.known
      · intro other otherEq
        cases otherEq
      · intro plaintext blob impossible
        cases impossible
  | true =>
      have historyEq : history = running.history ++ [running.receive] := by
        simp [history, reaches]
      have known := sound.known.record current
      obtain ⟨outcome, now, endedEq, serialised⟩ :=
        EnclaveInstance.endReceive_sealing running.enclave maxPersistentMapSize reaches
      rw [endedEq] at ended
      cases ended
      refine ⟨⟨?_, ?_⟩, ?_⟩
      · rw [historyEq]
        exact known
      · intro other otherEq
        cases otherEq
      · intro plaintext blob okEq client stateId held
        rw [EnclaveInstance.lastSeen_start (serialised plaintext okEq)] at held
        rw [historyEq]
        exact known client stateId held

theorem World.Sound.endReceive {world : World} (sound : world.Sound) {index : Nat}
    {running : RunningEnclave} (own : running.Sound world.receives)
    {receiveContext : ReceiveContext}
    (receiving : running.enclave.currentReceiveContext = some receiveContext)
    (maxPersistentMapSize : Int) (ending : ReceiveEnd) (blob : Bytes) :
    (world.endReceive maxPersistentMapSize index running receiveContext ending blob).Sound := by
  unfold World.endReceive
  cases ended : running.enclave.endReceive receiveContext maxPersistentMapSize ending with
  | mk result enclave =>
      obtain ⟨next, sealed'⟩ :=
        own.endReceive receiving maxPersistentMapSize ending result enclave ended
      have set := sound.setEnclave index next
      cases result with
      | error e => exact set
      | ok plaintext =>
          refine { set with sealedBlobs := ?_ }
          intro stored member
          rcases List.mem_append.mp member with old | new
          · exact sound.sealedBlobs stored old
          · rw [List.mem_singleton.mp new]
            exact sealed' plaintext blob rfl

/-! ## Steps of a client -/

theorem lastReceive_concat (accepted : List Acceptance) (next : Acceptance) :
    lastReceive (accepted ++ [next]) =
      match next.mail.receive with
      | none => lastReceive accepted
      | some receive => some receive := by
  cases created : next.mail.receive <;> simp [lastReceive, created]

theorem Linked.concat {receives : List Receive} {accepted : List Acceptance}
    (linked : Linked receives accepted) {next : Acceptance}
    (link : next.rollback = false → ∀ before after, lastReceive accepted = some before →
      next.mail.receive = some after → before ≠ after →
        ∃ receive, receives[after]? = some receive ∧ before ∈ receive.history) :
    Linked receives (accepted ++ [next]) := by
  intro earlier other later split
  rcases append_singleton_split split with ⟨rest, front⟩ | ⟨rfl, rfl⟩
  · exact linked earlier other rest front
  · exact link

/-- Fresh IDs tell the receives apart. -/
theorem World.Sound.receive_eq {world : World} (sound : world.Sound) {first second : Nat}
    {stateId : EnclaveStateId} (firstId : stateIdOf world.receives first = some stateId)
    (secondId : stateIdOf world.receives second = some stateId) : first = second := by
  have firstAt : (world.receives.map Receive.stateId)[first]? = some stateId := by
    rw [List.getElem?_map]
    exact firstId
  have secondAt : (world.receives.map Receive.stateId)[second]? = some stateId := by
    rw [List.getElem?_map]
    exact secondId
  obtain ⟨firstBound, firstEq⟩ := List.getElem?_eq_some_iff.mp firstAt
  obtain ⟨secondBound, secondEq⟩ := List.getElem?_eq_some_iff.mp secondAt
  exact (sound.fresh.getElem_inj_iff).mp (firstEq.trans secondEq.symm)

theorem ClientRecord.Sound.lastSeen_eq_some {receives : List Receive} {record : ClientRecord}
    (sound : record.Sound receives) {receive : Nat}
    (last : lastReceive record.accepted = some receive) :
    ∃ stateId, record.client.lastSeenStateId = some stateId ∧
      stateIdOf receives receive = some stateId := by
  have bound := sound.numbered receive last
  have found := List.getElem?_eq_getElem bound
  refine ⟨receives[receive].stateId, ?_, ?_⟩
  · rw [sound.lastSeen, last, Option.bind_some, stateIdOf, found, Option.map_some]
  · rw [stateIdOf, found, Option.map_some]

/-- Taking in a mail of the given receive, with or without an exception. -/
theorem ClientRecord.Sound.accept {receives : List Receive} {record : ClientRecord}
    (sound : record.Sound receives) {acceptance : Acceptance} {number : Nat} {receive : Receive}
    (created : acceptance.mail.receive = some number) (found : receives[number]? = some receive)
    (link : acceptance.rollback = false → ∀ before, lastReceive record.accepted = some before →
      before ≠ number → before ∈ receive.history) :
    ClientRecord.Sound receives
      ⟨{ record.client with lastSeenStateId := some receive.stateId },
        record.accepted ++ [acceptance]⟩ := by
  have last : lastReceive (record.accepted ++ [acceptance]) = some number := by
    rw [lastReceive_concat, created]
  refine ⟨?_, ?_, sound.linked.concat ?_⟩
  · rw [last, Option.bind_some, stateIdOf, found, Option.map_some]
  · intro other otherEq
    rw [last] at otherEq
    cases otherEq
    exact (List.getElem?_eq_some_iff.mp found).1
  · intro silent before after beforeEq afterEq different
    rw [created] at afterEq
    cases afterEq
    exact ⟨receive, found, link silent before beforeEq different⟩

theorem ClientRecord.Sound.acceptPlain {receives : List Receive} {record : ClientRecord}
    (sound : record.Sound receives) {acceptance : Acceptance}
    (plain : acceptance.mail.receive = none) :
    ClientRecord.Sound receives ⟨record.client, record.accepted ++ [acceptance]⟩ := by
  have last : lastReceive (record.accepted ++ [acceptance]) = lastReceive record.accepted := by
    rw [lastReceive_concat, plain]
  refine ⟨?_, ?_, sound.linked.concat ?_⟩
  · rw [last]
    exact sound.lastSeen
  · rw [last]
    exact sound.numbered
  · intro _ before after _ created
    rw [plain] at created
    cases created

theorem World.Sound.processMail {world : World} (sound : world.Sound) {record : ClientRecord}
    (own : record.Sound world.receives) (encryptedMail : Bytes) :
    (world.processMail record encryptedMail).Sound world.receives := by
  unfold World.processMail
  cases opened : decryptMail world.mails encryptedMail record.client.clientPublicKey
      record.client.encryptionKey with
  | none =>
      rw [EnclaveClient.processMail_closed opened]
      simpa [World.acceptance] using own
  | some mail =>
      cases sound.mails mail (decryptMail_eq_some opened).1 with
      | plain noHeader noReceive =>
          rw [EnclaveClient.processMail_plain opened noHeader]
          exact own.acceptPlain noReceive
      | session number receive previous created found header known =>
          have current : stateIdOf world.receives number = some receive.stateId := by
            rw [stateIdOf, found, Option.map_some]
          rcases EnclaveClient.processMail_cases opened header with
            ⟨same, processed⟩ | ⟨_, expected, processed⟩ | ⟨_, _, processed⟩
          · rw [processed]
            have unchanged : record.client =
                { record.client with lastSeenStateId := some receive.stateId } := by
              rw [← same]
            rw [unchanged]
            refine own.accept created found ?_
            intro _ before last different
            obtain ⟨stateId, lastSeen, beforeId⟩ := own.lastSeen_eq_some last
            rw [same] at lastSeen
            cases lastSeen
            exact absurd (sound.receive_eq beforeId current) different
          · rw [processed]
            refine own.accept created found ?_
            intro _ before last _
            obtain ⟨stateId, lastSeen, beforeId⟩ := own.lastSeen_eq_some last
            obtain ⟨earlier, member, earlierId⟩ := known stateId (expected.symm.trans lastSeen)
            rw [sound.receive_eq beforeId earlierId]
            exact member
          · rw [processed]
            refine own.accept created found ?_
            intro silent
            cases silent

/-! ## Runs -/

theorem World.Sound.initial : World.initial.Sound := by
  refine ⟨List.nodup_nil, ?_, ?_, ?_, ?_⟩ <;> intro _ member <;> cases member

theorem World.Sound.setClient {world : World} (sound : world.Sound) (index : Nat)
    {record : ClientRecord} (next : record.Sound world.receives) :
    World.Sound { world with clients := world.clients.set index record } := by
  refine { sound with clients := ?_ }
  intro other member
  rcases List.mem_or_eq_of_mem_set member with old | rfl
  · exact sound.clients other old
  · exact next

theorem World.Sound.step {maxPersistentMapSize : Int} {world next : World} {event : Event}
    (sound : world.Sound) (stepped : world.step maxPersistentMapSize event = some next) :
    next.Sound := by
  cases event with
  | startEnclave sealedState =>
      cases stepped
      refine { sound with enclaves := ?_ }
      intro running member
      rcases List.mem_append.mp member with old | new
      · exact sound.enclaves running old
      · rw [List.mem_singleton.mp new]
        exact sound.startEnclave sealedState
  | beginReceive index stateId =>
      simp only [World.step] at stepped
      split at stepped
      · rename_i new
        obtain ⟨running, found, rfl⟩ := Option.map_eq_some_iff.mp stepped
        exact sound.beginReceive (sound.enclaves running (List.mem_of_getElem? found)) new
      · cases stepped
  | setPersistentMap index map =>
      obtain ⟨running, found, rfl⟩ := Option.map_eq_some_iff.mp stepped
      have own := sound.enclaves running (List.mem_of_getElem? found)
      exact sound.setEnclave index ⟨own.known, own.current⟩
  | createMail index recipient encryptedMail =>
      simp only [World.step] at stepped
      split at stepped
      · obtain ⟨running, found, rfl⟩ := Option.map_eq_some_iff.mp stepped
        exact sound.createMail (sound.enclaves running (List.mem_of_getElem? found)) recipient
          encryptedMail
      · cases stepped
  | postMail index =>
      obtain ⟨running, found, rfl⟩ := Option.map_eq_some_iff.mp stepped
      have own := sound.enclaves running (List.mem_of_getElem? found)
      refine sound.setEnclave index ⟨own.known, ?_⟩
      intro receiveContext receiving
      obtain ⟨before, beforeEq, rfl⟩ := Option.map_eq_some_iff.mp receiving
      exact own.current before beforeEq
  | endReceive index ending blob =>
      simp only [World.step] at stepped
      split at stepped
      · obtain ⟨running, found, stepped⟩ := Option.bind_eq_some_iff.mp stepped
        obtain ⟨receiveContext, receiving, rfl⟩ := Option.map_eq_some_iff.mp stepped
        exact sound.endReceive (sound.enclaves running (List.mem_of_getElem? found)) receiving
          maxPersistentMapSize ending blob
      · cases stepped
  | newClient clientPublicKey encryptionKey =>
      cases stepped
      refine { sound with clients := ?_ }
      intro record member
      rcases List.mem_append.mp member with old | new
      · exact sound.clients record old
      · rw [List.mem_singleton.mp new]
        refine ⟨rfl, ?_, ?_⟩
        · intro receive last
          cases last
        · intro earlier acceptance later split
          simp at split
  | setEnclaveInstanceInfo index encryptionKey =>
      obtain ⟨record, found, rfl⟩ := Option.map_eq_some_iff.mp stepped
      have own := sound.clients record (List.mem_of_getElem? found)
      exact sound.setClient index ⟨own.lastSeen, own.numbered, own.linked⟩
  | processMail index encryptedMail =>
      obtain ⟨record, found, rfl⟩ := Option.map_eq_some_iff.mp stepped
      exact sound.setClient index
        (sound.processMail (sound.clients record (List.mem_of_getElem? found)) encryptedMail)

theorem lastReceive_of_between {before between : List Acceptance} {first : Acceptance}
    {receive : Nat} (created : first.mail.receive = some receive)
    (same : ∀ acceptance ∈ between, ∀ other, acceptance.mail.receive = some other →
      other = receive) :
    lastReceive (before ++ first :: between) = some receive := by
  induction between using List.reverseRecOn with
  | nil => rw [lastReceive_concat, created]
  | append_singleton between last ih =>
      have earlier := ih fun acceptance member =>
        same acceptance (List.mem_append_left _ member)
      rw [← List.cons_append, ← List.append_assoc, lastReceive_concat]
      cases lastEq : last.mail.receive with
      | none => exact earlier
      | some other => exact congrArg some (same last (by simp) other lastEq)

/-- Under any schedule: after a mail of receive `earlier`, the next new state ID
a client accepts without an exception comes from a receive whose enclave had
`earlier` in the history of its state, which comes after the state that
`sendSealedState` wrote in `earlier`. -/
theorem rollbackDetection_sound {maxPersistentMapSize : Int} {events : List Event}
    {world : World}
    (ran : run (World.step maxPersistentMapSize) World.initial events = some world)
    {record : ClientRecord} (member : record ∈ world.clients)
    {before between after : List Acceptance} {first next : Acceptance}
    (accepted : record.accepted = before ++ first :: (between ++ next :: after))
    {earlier later : Nat} (firstMail : first.mail.receive = some earlier)
    (betweenMail : ∀ acceptance ∈ between, ∀ receive,
      acceptance.mail.receive = some receive → receive = earlier)
    (nextMail : next.mail.receive = some later) (new : earlier ≠ later)
    (noException : next.rollback = false) :
    ∃ receive, world.receives[later]? = some receive ∧ earlier ∈ receive.history := by
  have sound : world.Sound := run_invariant (fun sound stepped => sound.step stepped)
    World.Sound.initial ran
  have split : record.accepted = (before ++ first :: between) ++ next :: after := by
    rw [accepted, List.append_assoc, List.cons_append]
  exact (sound.clients record member).linked _ next after split noException earlier later
    (lastReceive_of_between firstMail betweenMail) nextMail new

def clientKey : Curve25519PublicKey := ⟨List.replicate 32 7, by decide⟩

def firstStateId : EnclaveStateId := ⟨List.replicate 16 1, by decide⟩

def secondStateId : EnclaveStateId := ⟨List.replicate 16 2, by decide⟩

/-- A receive that answers the client. -/
def answeringReceive (enclave : Nat) (stateId : EnclaveStateId) (encryptedMail : Bytes) :
    List Event :=
  [.beginReceive enclave stateId, .createMail enclave clientKey (some encryptedMail),
    .postMail enclave, .endReceive enclave (.returned Conclave.Enclave.Instant.EPOCH false)
      encryptedMail]

/-- Two answers, the second one from an instance restored from the state of the first. -/
def restoredRun : List Event :=
  [.startEnclave none, .newClient clientKey 0] ++ answeringReceive 0 firstStateId [1] ++
    [.processMail 0 [1], .startEnclave (some [1])] ++ answeringReceive 1 secondStateId [2] ++
    [.setEnclaveInstanceInfo 0 1, .processMail 0 [2]]

theorem rollbackDetection_restoredRun :
    ∃ world, run (World.step 1000) World.initial restoredRun = some world ∧
      ∃ receive, world.receives[1]? = some receive ∧ 0 ∈ receive.history := by
  have outcome : (run (World.step 1000) World.initial restoredRun).map (fun world =>
      world.clients.map fun record => record.accepted.map fun acceptance =>
        (acceptance.mail.receive, acceptance.rollback)) =
      some [[(some 0, false), (some 1, false)]] := by
    decide +kernel
  obtain ⟨world, ran, clients⟩ := Option.map_eq_some_iff.mp outcome
  obtain ⟨record, recordEq, accepted⟩ := List.map_eq_singleton_iff.mp clients
  obtain ⟨first, rest, acceptedEq, firstEq, restEq⟩ := List.map_eq_cons_iff.mp accepted
  obtain ⟨next, rfl, nextEq⟩ := List.map_eq_singleton_iff.mp restEq
  have member : record ∈ world.clients := by
    rw [recordEq]
    exact List.mem_singleton_self record
  have split : record.accepted = [] ++ first :: ([] ++ next :: []) := acceptedEq
  refine ⟨world, ran, ?_⟩
  exact rollbackDetection_sound ran member split (congrArg Prod.fst firstEq)
    (by intro _ impossible; cases impossible) (congrArg Prod.fst nextEq) (by decide)
    (congrArg Prod.snd nextEq)

def World.SealedAtEndOf (world : World) (receive : Nat) : Prop :=
  ∃ stored ∈ world.sealedBlobs, stored.history.getLast? = some receive

/-- Two answers of one instance, which could not seal its state at the end of the first. -/
def unsealedRun : List Event :=
  [.startEnclave none, .newClient clientKey 0, .beginReceive 0 firstStateId,
    .createMail 0 clientKey (some [1]), .postMail 0,
    .endReceive 0 (.returned Conclave.Enclave.Instant.EPOCH true) [1], .processMail 0 [1]] ++
    answeringReceive 0 secondStateId [2] ++ [.processMail 0 [2]]

/-- The client accepts both answers, but no state was sealed at the end of the first receive. -/
theorem unsealedRun_accepted :
    ¬∀ (maxPersistentMapSize : Int) (events : List Event) (world : World) (record : ClientRecord)
      (before between after : List Acceptance) (first next : Acceptance) (earlier later : Nat),
      run (World.step maxPersistentMapSize) World.initial events = some world →
      record ∈ world.clients →
      record.accepted = before ++ first :: (between ++ next :: after) →
      first.mail.receive = some earlier →
      (∀ acceptance ∈ between, ∀ receive,
        acceptance.mail.receive = some receive → receive = earlier) →
      next.mail.receive = some later → earlier ≠ later → next.rollback = false →
        (∃ receive, world.receives[later]? = some receive ∧ earlier ∈ receive.history) ∧
          world.SealedAtEndOf earlier := by
  intro stated
  have outcome : (run (World.step 1000) World.initial unsealedRun).map (fun world =>
      (world.clients.map fun record => record.accepted.map fun acceptance =>
        (acceptance.mail.receive, acceptance.rollback),
        world.sealedBlobs.map fun stored => stored.history.getLast?)) =
      some ([[(some 0, false), (some 1, false)]], [some 1]) := by
    decide +kernel
  obtain ⟨world, ran, both⟩ := Option.map_eq_some_iff.mp outcome
  obtain ⟨clients, blobs⟩ := Prod.mk.inj both
  obtain ⟨record, recordEq, accepted⟩ := List.map_eq_singleton_iff.mp clients
  obtain ⟨first, rest, acceptedEq, firstEq, restEq⟩ := List.map_eq_cons_iff.mp accepted
  obtain ⟨next, rfl, nextEq⟩ := List.map_eq_singleton_iff.mp restEq
  have member : record ∈ world.clients := by
    rw [recordEq]
    exact List.mem_singleton_self record
  have split : record.accepted = [] ++ first :: ([] ++ next :: []) := acceptedEq
  obtain ⟨-, stored, sealedMember, last⟩ := stated 1000 unsealedRun world record [] [] [] first next
    0 1 ran member split (congrArg Prod.fst firstEq) (by intro _ impossible; cases impossible)
    (congrArg Prod.fst nextEq) (by decide) (congrArg Prod.snd nextEq)
  obtain ⟨only, blobEq, lastEq⟩ := List.map_eq_singleton_iff.mp blobs
  rw [blobEq] at sealedMember
  rw [List.mem_singleton.mp sealedMember, lastEq] at last
  cases last

/-- The same without the sealed state is noticed. -/
def forgottenRun : List Event :=
  [.startEnclave none, .newClient clientKey 0] ++ answeringReceive 0 firstStateId [1] ++
    [.processMail 0 [1], .startEnclave none] ++ answeringReceive 1 secondStateId [2] ++
    [.setEnclaveInstanceInfo 0 1, .processMail 0 [2]]

example : (run (World.step 1000) World.initial forgottenRun).map (fun world =>
    world.clients.map fun record => record.accepted.map fun acceptance =>
      (acceptance.mail.receive, acceptance.rollback)) =
    some [[(some 0, false), (some 1, true)]] := by
  decide +kernel

end Conclave.Client
