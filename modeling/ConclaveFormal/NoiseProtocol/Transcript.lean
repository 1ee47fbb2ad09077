import ConclaveFormal.NoiseProtocol.Calls

/-!
# The hash at the end

The handshake hash stands for all the messages, both those that were sent and
those that came in: two sides that end with the same hash have seen the same
messages, unless two of the inputs they hashed collide.
-/

set_option autoImplicit false

namespace Conclave.NoiseProtocol

open Conclave.Lib Attempt Pattern HandshakeState

variable {state after first : HandshakeState} {events more : List HandshakeEvent}

/-! ## What the hash at the end stands for -/

/-- The messages that have gone through, in either direction. -/
def messagesOf (events : List HandshakeEvent) : List Bytes :=
  events.filterMap fun event =>
    match event with
    | .wrote message => some message
    | .read message => some message
    | _ => none

theorem messagesOf_append (events more : List HandshakeEvent) :
    messagesOf (events ++ more) = messagesOf events ++ messagesOf more :=
  List.filterMap_append

/-- The number of parts of each message: its keys and its payload. -/
def pieceCounts : List Token → List Nat
  | [] => [1]
  | token :: tokens =>
      if token = .flipDir then 1 :: pieceCounts tokens
      else (pieceCounts tokens).modifyHead (token.keys + ·)

theorem pieceCounts_eq (tokens : List Token) :
    pieceCounts tokens =
      (messageKeys tokens + 1) :: ((afterMessage tokens).map pieceCounts).getD [] := by
  induction tokens with
  | nil => rfl
  | cons token tokens ih =>
      rw [pieceCounts, messageKeys, afterMessage]
      split
      · rfl
      · rw [ih, List.modifyHead_cons, Nat.add_assoc]

/-- The parts that are still to come. -/
def HandshakeState.countsLeft (state : HandshakeState) : List Nat :=
  match state.action with
  | .writeMessage => pieceCounts state.remaining
  | .readMessage => pieceCounts state.remaining
  | _ => []

/-- What has been hashed since `first`: the parts before the first message, the prologue first,
and those of each message. -/
structure Transcript (first : HandshakeState) (events : List HandshakeEvent)
    (state : HandshakeState) (opening : List Bytes) (parts : List (List Bytes)) : Prop where
  hash : state.symmetric.hash = first.symmetric.hash
  h : state.symmetric.h =
    absorb first.symmetric.hash.digest first.symmetric.h (opening ++ parts.flatten)
  messages : messagesOf events = parts.map List.flatten
  prologue : opening.head? = some (state.prologue.getD [])
  count : opening.length = 1 + first.counts pskRequired + first.counts localPremsg +
    first.counts remotePremsg
  sizes : parts.map List.length ++ state.countsLeft = pieceCounts first.pattern.tokens

/-- A new state that has only been configured. -/
structure Unstarted (first : HandshakeState) (events : List HandshakeEvent)
    (state : HandshakeState) : Prop where
  action : state.action = .noAction
  nothing : messagesOf events = []
  symmetric : state.symmetric = first.symmetric
  pattern : state.pattern = first.pattern
  patternIndex : state.patternIndex = 0
  requirements : state.requirements = first.requirements

/-- The phases of a run. -/
inductive Recorded (first : HandshakeState) (events : List HandshakeEvent)
    (state : HandshakeState) : Prop where
  | failed (action : state.action = .failed)
  | unstarted (unstarted : Unstarted first events state)
  | running (running : state.action ≠ .noAction)
      (transcript : ∃ opening parts, Transcript first events state opening parts)

theorem Transcript.message {opening : List Bytes} {parts : List (List Bytes)}
    {pieces : List Bytes} {next : Action} (transcript : Transcript first events state opening parts)
    (goes : state.action = .writeMessage ∨ state.action = .readMessage)
    (goesOn : next = .writeMessage ∨ next = .readMessage)
    (count : pieces.length = messageKeys state.remaining + 1)
    (walks : Walks state.remaining next pieces state after)
    (message : messagesOf more = [pieces.flatten]) :
    Transcript first (events ++ more) after opening (parts ++ [pieces]) where
  hash := walks.hash.trans transcript.hash
  h := by
    rw [List.flatten_append, List.flatten_singleton, ← List.append_assoc, absorb_append,
      ← transcript.h, ← transcript.hash]
    exact walks.h
  messages := by
    rw [messagesOf_append, transcript.messages, message, List.map_append]
    rfl
  prologue := by
    rw [walks.prologue]
    exact transcript.prologue
  count := transcript.count
  sizes := by
    have before : state.countsLeft = pieceCounts state.remaining := by
      rcases goes with writing | reading
      · rw [countsLeft, writing]
      · rw [countsLeft, reading]
    have later : after.countsLeft = ((afterMessage state.remaining).map pieceCounts).getD [] := by
      rw [countsLeft, walks.action, walks.remaining]
      cases afterMessage state.remaining with
      | none => rfl
      | some rest => rcases goesOn with rfl | rfl <;> rfl
    have sizes := transcript.sizes
    rw [before, pieceCounts_eq] at sizes
    rw [later, List.map_append, List.map_singleton, count, ← sizes, List.append_assoc,
      List.singleton_append]

theorem Walks.running {pieces : List Bytes} {tokens : List Token} {next : Action}
    (walks : Walks tokens next pieces state after) (goesOn : next ≠ .noAction) :
    after.action ≠ .noAction := by
  rw [walks.action]
  split
  · exact goesOn
  · decide

theorem Recorded.step (recorded : Recorded first events state)
    (effect : Effect state more after) : Recorded first (events ++ more) after := by
  cases recorded with
  | failed action => exact .failed (effect.stays_failed action)
  | unstarted unstarted =>
      cases effect with
      | failed action => exact .failed action
      | configured configured =>
          rw [List.append_nil]
          exact .unstarted
            { action := configured.action.trans unstarted.action
              nothing := unstarted.nothing
              symmetric := configured.symmetric.trans unstarted.symmetric
              pattern := configured.pattern.trans unstarted.pattern
              patternIndex := configured.patternIndex.trans unstarted.patternIndex
              requirements := configured.requirements.trans unstarted.requirements }
      | @started _ pieces idle starts =>
          have same (requirement : UInt32) :
              state.counts requirement = first.counts requirement := by
            rw [counts, counts, requires, requires, unstarted.requirements]
          refine .running ?_ ⟨pieces, [], ?_⟩
          · rw [starts.action]
            split <;> decide
          · have count := starts.count
            have h := starts.h
            have hash := starts.hash
            rw [same, same, same] at count
            rw [unstarted.symmetric] at h hash
            refine ⟨hash, by rw [List.flatten_nil, List.append_nil]; exact h, ?_, ?_, count, ?_⟩
            · rw [messagesOf_append, unstarted.nothing]
              rfl
            · rw [starts.prologue]
              exact starts.first
            · have remaining : after.remaining = first.pattern.tokens := by
                rw [HandshakeState.remaining, starts.pattern, starts.patternIndex,
                  unstarted.patternIndex, unstarted.pattern, List.drop_zero]
              rw [List.map_nil, List.nil_append, countsLeft, starts.action, remaining]
              cases state.isInitiator <;> rfl
      | wrote writing _ _ =>
          rw [unstarted.action] at writing
          cases writing
      | read reading _ _ =>
          rw [unstarted.action] at reading
          cases reading
      | split splitting =>
          rw [unstarted.action] at splitting
          cases splitting
  | running running transcript =>
      obtain ⟨opening, parts, transcript⟩ := transcript
      cases effect with
      | failed action => exact .failed action
      | configured configured =>
          have left : after.countsLeft = state.countsLeft := by
            rw [countsLeft, countsLeft, remaining, remaining, configured.action,
              configured.pattern, configured.patternIndex]
          rw [List.append_nil]
          refine .running (by rw [configured.action]; exact running) ⟨opening, parts, ?_⟩
          exact
            { hash := by rw [configured.symmetric]; exact transcript.hash
              h := by rw [configured.symmetric]; exact transcript.h
              messages := transcript.messages
              prologue := by rw [configured.prologue running]; exact transcript.prologue
              count := transcript.count
              sizes := by rw [left]; exact transcript.sizes }
      | started idle _ => exact absurd idle running
      | wrote writing count walks =>
          exact .running (walks.running (by decide)) ⟨opening, _,
            transcript.message (Or.inl writing) (Or.inr rfl) count walks rfl⟩
      | read reading count walks =>
          exact .running (walks.running (by decide)) ⟨opening, _,
            transcript.message (Or.inr reading) (Or.inl rfl) count walks rfl⟩
      | split splitting =>
          have none_left : state.countsLeft = [] := by rw [countsLeft, splitting]
          refine .running (fun impossible => by cases impossible) ⟨opening, parts, ?_⟩
          exact
            { hash := transcript.hash
              h := transcript.h
              messages := by
                rw [messagesOf_append, transcript.messages]
                exact List.append_nil _
              prologue := transcript.prologue
              count := transcript.count
              sizes := by
                rw [← transcript.sizes, none_left]
                rfl }

theorem play_recorded (calls : List HandshakeCall) : ∀ {events : List HandshakeEvent}
    {state : HandshakeState}, Live state → Recorded first events state →
    Recorded first (events ++ (play calls state).1) (play calls state).2 := by
  induction calls with
  | nil =>
      intro events state _ recorded
      rw [play, List.append_nil]
      exact recorded
  | cons call calls ih =>
      intro events state live recorded
      have effect := perform_effect live call
      have later := ih (effect.live live) (recorded.step effect)
      rw [List.append_assoc] at later
      exact later

theorem getHandshakeHash_known {hash : Bytes}
    (known : (getHandshakeHash state).1 = .ok hash) :
    (state.action = .split ∨ state.action = .complete) ∧ state.symmetric.h = hash := by
  rw [getHandshakeHash, get_bind] at known
  split at known
  · cases known
  · rename_i done
    rw [not_and_or, not_not, not_not] at done
    exact ⟨done, Except.ok.inj known⟩

/-- A run that comes to its end has hashed all that it should. -/
theorem play_transcript {crypto : Crypto} {protocolName : String} {role : Role}
    {pattern : Pattern} {symmetric : SymmetricState} {psk : Bool}
    (begins : Begins crypto protocolName role pattern symmetric psk state)
    {calls : List HandshakeCall} {final : HandshakeState}
    (ran : play calls state = (events, final))
    (done : final.action = .split ∨ final.action = .complete) :
    ∃ opening parts, Transcript state events final opening parts ∧
      parts.map List.length = pieceCounts pattern.tokens := by
  have unstarted : Unstarted state [] state :=
    ⟨begins.action, rfl, rfl, rfl, begins.patternIndex, rfl⟩
  have recorded := play_recorded calls begins.live (.unstarted unstarted)
  rw [ran, List.nil_append] at recorded
  cases recorded with
  | failed action =>
      rw [action] at done
      rcases done with split | complete
      · cases split
      · cases complete
  | unstarted unstarted =>
      rw [unstarted.action] at done
      rcases done with split | complete
      · cases split
      · cases complete
  | running _ transcript =>
      obtain ⟨opening, parts, transcript⟩ := transcript
      refine ⟨opening, parts, transcript, ?_⟩
      have sizes := transcript.sizes
      have nothing : final.countsLeft = [] := by
        rw [countsLeft]
        rcases done with split | complete
        · rw [split]
        · rw [complete]
      rw [nothing, List.append_nil, begins.pattern] at sizes
      exact sizes

/-- Both sides hash as many parts before the first message. -/
theorem Begins.opening {crypto : Crypto} {protocolName : String} {role : Role}
    {pattern : Pattern} {symmetric : SymmetricState} {psk : Bool}
    (begins : Begins crypto protocolName role pattern symmetric psk state) :
    1 + state.counts pskRequired + state.counts localPremsg + state.counts remotePremsg =
      1 + (if psk then 1 else 0) +
        ((if required pattern.flags true then 1 else 0) +
          if required pattern.flags false then 1 else 0) := by
  have bits := begins.requirements
  have pskBit : state.requires pskRequired = _ := bits.pskRequired
  have own : state.requires localPremsg = _ := bits.localPremsg
  have other : state.requires remotePremsg = _ := bits.remotePremsg
  rw [counts, counts, counts, pskBit, own, other]
  cases role with
  | initiator => exact Nat.add_assoc _ _ _
  | responder =>
      show _ + (if required pattern.flags false then 1 else 0) +
        (if required pattern.flags true then 1 else 0) = _
      rw [Nat.add_assoc, Nat.add_comm (if required pattern.flags false = true then 1 else 0)]

theorem sampleReceiver_hash :
    hashAfter .responder sampleReceiver = some (List.replicate 32 225) := by
  decide +kernel

end Conclave.NoiseProtocol
