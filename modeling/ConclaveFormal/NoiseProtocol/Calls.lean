import ConclaveFormal.NoiseProtocol.Absorption

/-!
# Any use of a handshake state

A handshake state is an object an application may call in any order, with what
the network delivers.  Whatever it does short of falling back to another pattern
or destroying the object, messages go through in the order of the pattern and a
state that has failed is of no more use.
-/

set_option autoImplicit false

namespace Conclave.NoiseProtocol

open Conclave.Lib Attempt Pattern HandshakeState

/-! ## Calls -/

/-- The public methods that change the state, but for `fallback`, which starts another handshake,
and `destroy`, behind which the object is not to be used. -/
inductive HandshakeCall where
  | setPrologue (prologue : Bytes)
  | setPreSharedKey (key : Bytes)
  | setLocalPrivateKey (key : Bytes)
  | setRemotePublicKey (key : Bytes)
  | start
  | writeMessage (random : Nat → Bytes) (size messageOffset : Nat) (payload : Option Bytes)
  | readMessage (message : Bytes) (space : Nat)
  | split (secondaryKey : Bytes)

/-- A step of the handshake that has been successful. -/
inductive HandshakeEvent where
  | started
  | wrote (message : Bytes)
  | read (message : Bytes)
  | split
  deriving DecidableEq, Repr

/-- What a call that returns `value` is recorded as. -/
def recorded {α : Type} (event : α → List HandshakeEvent) (attempt : Handshaking α)
    (state : HandshakeState) : List HandshakeEvent × HandshakeState :=
  match attempt state with
  | (.ok value, after) => (event value, after)
  | (.error _, after) => ([], after)

def HandshakeCall.perform : HandshakeCall → HandshakeState → List HandshakeEvent × HandshakeState
  | .setPrologue prologue => recorded (fun _ => []) (HandshakeState.setPrologue prologue)
  | .setPreSharedKey key => recorded (fun _ => []) (HandshakeState.setPreSharedKey key)
  | .setLocalPrivateKey key => recorded (fun _ => []) (HandshakeState.setLocalPrivateKey key)
  | .setRemotePublicKey key => recorded (fun _ => []) (HandshakeState.setRemotePublicKey key)
  | .start => recorded (fun _ => [.started]) HandshakeState.start
  | .writeMessage random size messageOffset payload =>
      recorded (fun message => [.wrote message])
        (HandshakeState.writeMessage random size messageOffset payload)
  | .readMessage message space =>
      recorded (fun _ => [.read message]) (HandshakeState.readMessage message space)
  | .split secondaryKey => recorded (fun _ => [.split]) (HandshakeState.split secondaryKey)

/-- The events of a whole run, and the state after it. -/
def play : List HandshakeCall → HandshakeState → List HandshakeEvent × HandshakeState
  | [], state => ([], state)
  | call :: calls, state =>
      let (events, state) := call.perform state
      let (later, final) := play calls state
      (events ++ later, final)

/-! ## What one call can do -/

/-- Keys have been set, and before the start the prologue and the pre-shared key. -/
structure Configured (state after : HandshakeState) : Prop where
  isInitiator : after.isInitiator = state.isInitiator
  pattern : after.pattern = state.pattern
  patternIndex : after.patternIndex = state.patternIndex
  requirements : after.requirements = state.requirements
  symmetric : after.symmetric = state.symmetric
  action : after.action = state.action
  prologue : state.action ≠ .noAction → after.prologue = state.prologue
  psk : (state.preSharedKey.isSome = true → state.requires pskRequired = true) →
    after.preSharedKey.isSome = true → after.requires pskRequired = true

theorem Configured.refl (state : HandshakeState) : Configured state state :=
  ⟨rfl, rfl, rfl, rfl, rfl, rfl, fun _ => rfl, id⟩

inductive Effect (state : HandshakeState) : List HandshakeEvent → HandshakeState → Prop where
  | failed {after : HandshakeState} (action : after.action = .failed) : Effect state [] after
  | configured {after : HandshakeState} (configured : Configured state after) :
      Effect state [] after
  | started {after : HandshakeState} {pieces : List Bytes} (idle : state.action = .noAction)
      (starts : Starts pieces state after) : Effect state [.started] after
  | wrote {after : HandshakeState} {pieces : List Bytes} (writing : state.action = .writeMessage)
      (count : pieces.length = messageKeys state.remaining + 1)
      (walks : Walks state.remaining .readMessage pieces state after) :
      Effect state [.wrote pieces.flatten] after
  | read {after : HandshakeState} {pieces : List Bytes} (reading : state.action = .readMessage)
      (count : pieces.length = messageKeys state.remaining + 1)
      (walks : Walks state.remaining .writeMessage pieces state after) :
      Effect state [.read pieces.flatten] after
  | split (splitting : state.action = .split) :
      Effect state [.split] { state with action := .complete }

section Effects

variable {α : Type} {event : α → List HandshakeEvent} {attempt : Handshaking α}
  {state after : HandshakeState}

theorem recorded_ok {value : α} (ran : attempt state = (.ok value, after)) :
    recorded event attempt state = (event value, after) := by
  rw [recorded, ran]

theorem recorded_error {e : NoiseError} (ran : attempt state = (.error e, after)) :
    recorded event attempt state = ([], after) := by
  rw [recorded, ran]

/-- It is enough to look at what a method returns and at what it throws. -/
theorem recorded_effect
    (returns : ∀ value after, attempt state = (.ok value, after) →
      Effect state (event value) after)
    (throws : ∀ e after, attempt state = (.error e, after) → Effect state [] after) :
    Effect state (recorded event attempt state).1 (recorded event attempt state).2 := by
  cases ran : attempt state with
  | mk outcome after =>
      cases outcome with
      | ok value =>
          rw [recorded_ok ran]
          exact returns value after ran
      | error e =>
          rw [recorded_error ran]
          exact throws e after ran

theorem failing_eq_error {body : Handshaking α} {e : NoiseError}
    (ran : failing body state = (.error e, after)) : after.action = .failed := by
  rw [failing, handle] at ran
  split at ran
  · cases ran
  · cases ran
    rfl

end Effects

theorem setter_effect {attempt : Handshaking Unit} {state : HandshakeState}
    (refused : ∀ e after, attempt state = (.error e, after) → after = state)
    (done : ∀ after, attempt state = (.ok (), after) → Configured state after) :
    Effect state (recorded (fun _ => []) attempt state).1
      (recorded (fun _ => []) attempt state).2 := by
  refine recorded_effect (fun _ after ran => .configured (done after ran)) fun e after ran => ?_
  cases refused e after ran
  exact .configured (Configured.refl _)

theorem perform_effect {state : HandshakeState}
    (startable : state.action = .noAction → Startable state) (call : HandshakeCall) :
    Effect state (call.perform state).1 (call.perform state).2 := by
  cases call with
  | setPrologue prologue =>
      refine setter_effect (fun e after ran => ?_) fun after ran => ?_
      all_goals
        rw [HandshakeState.setPrologue, get_bind] at ran
        split at ran
        all_goals cases ran
      · rfl
      · rename_i idle
        exact ⟨rfl, rfl, rfl, rfl, rfl, rfl, fun started => absurd started idle, id⟩
  | setPreSharedKey key =>
      refine setter_effect (fun e after ran => ?_) fun after ran => ?_
      all_goals
        rw [HandshakeState.setPreSharedKey, get_bind] at ran
        split at ran
        · cases ran <;> rfl
        · split at ran
          · cases ran <;> rfl
          · rename_i supported
            split at ran
            all_goals cases ran
            all_goals
              first
                | rfl
                | exact ⟨rfl, rfl, rfl, rfl, rfl, rfl, fun _ => rfl,
                    fun _ _ => bne_iff_ne.mpr supported⟩
  | setLocalPrivateKey key =>
      refine setter_effect (fun e after ran => ?_) fun after ran => ?_
      all_goals
        rw [HandshakeState.setLocalPrivateKey, get_bind] at ran
        cases held : state.localKeyPair with
        | none =>
            simp only [held] at ran
            cases ran <;> rfl
        | some dh =>
            simp only [held] at ran
            cases ran <;> exact ⟨rfl, rfl, rfl, rfl, rfl, rfl, fun _ => rfl, id⟩
  | setRemotePublicKey key =>
      refine setter_effect (fun e after ran => ?_) fun after ran => ?_
      all_goals
        rw [HandshakeState.setRemotePublicKey, get_bind] at ran
        cases held : state.remotePublicKey with
        | none =>
            simp only [held] at ran
            cases ran <;> rfl
        | some dh =>
            simp only [held] at ran
            cases ran <;> exact ⟨rfl, rfl, rfl, rfl, rfl, rfl, fun _ => rfl, id⟩
  | start =>
      by_cases idle : state.action = .noAction
      · rcases start_cases (startable idle) with ⟨e, refused⟩ | can
        · rw [HandshakeCall.perform, recorded_error refused]
          exact .configured (Configured.refl state)
        · obtain ⟨after, pieces, ran, starts⟩ := start_starts (startable idle) can
          rw [HandshakeCall.perform, recorded_ok ran]
          exact .started idle starts
      · have refused : HandshakeState.start state =
            (.error (.illegalState "Handshake has already started; cannot start again"),
              state) := by
          rw [HandshakeState.start, get_bind, if_pos idle]
          rfl
        rw [HandshakeCall.perform, recorded_error refused]
        exact .configured (Configured.refl state)
  | writeMessage random size messageOffset payload =>
      refine recorded_effect (fun message after ran => ?_) fun e after ran => ?_
      · obtain ⟨writing, pieces, rfl, count, walks⟩ := writeMessage_walks ran
        exact .wrote writing count walks
      · rw [HandshakeState.writeMessage, get_bind] at ran
        split at ran
        · cases ran
          exact .configured (Configured.refl _)
        · split at ran
          · cases ran
            exact .configured (Configured.refl _)
          · exact .failed (failing_eq_error ran)
  | readMessage message space =>
      refine recorded_effect (fun payload after ran => ?_) fun e after ran => ?_
      · obtain ⟨reading, pieces, rfl, count, walks⟩ := readMessage_walks ran
        exact .read reading count walks
      · rw [HandshakeState.readMessage, get_bind] at ran
        split at ran
        · cases ran
          exact .configured (Configured.refl _)
        · exact .failed (failing_eq_error ran)
  | split secondaryKey =>
      by_cases splitting : state.action = .split
      · refine recorded_effect (fun pair after ran => ?_) fun e after ran => ?_
        all_goals
          rw [HandshakeState.split, get_bind, if_neg (not_not_intro splitting)] at ran
          cases halves : state.symmetric.split secondaryKey with
          | error e =>
              simp only [halves] at ran
              cases ran <;> exact .configured (Configured.refl _)
          | ok pair =>
              simp only [halves] at ran
              cases ran <;> exact .split splitting
      · have refused : HandshakeState.split secondaryKey state =
            (.error (.illegalState "Handshake has not finished"), state) := by
          rw [HandshakeState.split, get_bind, if_pos splitting]
          rfl
        rw [HandshakeCall.perform, recorded_error refused]
        exact .configured (Configured.refl state)

/-! ## The order of the steps -/

/-- What the state was waiting for when a step was made. -/
def HandshakeEvent.action : HandshakeEvent → Action
  | .started => .noAction
  | .wrote _ => .writeMessage
  | .read _ => .readMessage
  | .split => .split

/-- Messages in turn, and the end. -/
def turns : Nat → Bool → List Action
  | 0, _ => [.split]
  | count + 1, writing =>
      (if writing then .writeMessage else .readMessage) :: turns count (!writing)

/-- The steps of one side, one message for each direction the pattern has. -/
def script (isInitiator : Bool) (tokens : List Token) : List Action :=
  .noAction :: turns (messages tokens) isInitiator

/-- The steps that are still to come. -/
def HandshakeState.left (state : HandshakeState) : List Action :=
  match state.action with
  | .noAction => script state.isInitiator state.remaining
  | .writeMessage => turns (messages state.remaining) true
  | .readMessage => turns (messages state.remaining) false
  | .split => [.split]
  | .failed => []
  | .complete => []

/-- A state that has not been started can be. -/
def Live (state : HandshakeState) : Prop := state.action = .noAction → Startable state

variable {state after : HandshakeState} {events : List HandshakeEvent}

theorem Walks.next_left {pieces : List Bytes} {next : Action} (writing : Bool)
    (walks : Walks state.remaining next pieces state after)
    (turn : next = if writing then .writeMessage else .readMessage) :
    after.left = turns (messages state.remaining - 1) writing := by
  have action := walks.action
  rw [left, walks.remaining]
  cases rest : afterMessage state.remaining with
  | none =>
      rw [rest] at action
      rw [messages_of_last rest, action]
      rfl
  | some tokens =>
      rw [rest] at action
      rw [afterMessage_messages rest, action, turn]
      cases writing <;> rfl

theorem turns_pos {tokens : List Token} (writing : Bool) :
    turns (messages tokens) writing =
      (if writing then .writeMessage else .readMessage) ::
        turns (messages tokens - 1) (!writing) := rfl

/-- A step is the first of those that were to come, or there are none any more. -/
theorem Effect.left (effect : Effect state events after) :
    (after.action = .failed ∧ events = []) ∨
      events.map HandshakeEvent.action ++ after.left = state.left := by
  cases effect with
  | failed action => exact Or.inl ⟨action, rfl⟩
  | configured configured =>
      refine Or.inr ?_
      rw [List.map_nil, List.nil_append, HandshakeState.left, HandshakeState.left, remaining,
        remaining, configured.action, configured.pattern, configured.patternIndex,
        configured.isInitiator]
  | started idle starts =>
      refine Or.inr ?_
      have same : after.remaining = state.remaining := by
        rw [remaining, remaining, starts.pattern, starts.patternIndex]
      rw [HandshakeState.left, HandshakeState.left, idle, starts.action, same]
      cases state.isInitiator <;> rfl
  | wrote writing count walks =>
      refine Or.inr ?_
      rw [walks.next_left false rfl, HandshakeState.left, writing]
      exact (turns_pos true).symm
  | read reading count walks =>
      refine Or.inr ?_
      rw [walks.next_left true rfl, HandshakeState.left, reading]
      exact (turns_pos false).symm
  | split splitting =>
      refine Or.inr ?_
      rw [HandshakeState.left, HandshakeState.left, splitting]
      rfl

theorem Effect.live (effect : Effect state events after) (live : Live state) : Live after := by
  intro idle
  cases effect with
  | failed action =>
      rw [action] at idle
      cases idle
  | configured configured =>
      have startable := live (configured.action.symm.trans idle)
      have same (requirement : UInt32) :
          after.requires requirement = state.requires requirement := by
        rw [requires, requires, configured.requirements]
      refine ⟨?_, ?_, ?_, configured.psk startable.psk⟩
      · rw [same, same]
        exact startable.ownHashed
      · rw [same, same]
        exact startable.otherHashed
      · rw [same]
        exact startable.ordinary
  | started idle' starts =>
      rw [starts.action] at idle
      split at idle <;> cases idle
  | wrote writing count walks =>
      rw [walks.action] at idle
      split at idle <;> cases idle
  | read reading count walks =>
      rw [walks.action] at idle
      split at idle <;> cases idle
  | split splitting => cases idle

theorem Effect.stays_failed (effect : Effect state events after)
    (failed : state.action = .failed) : after.action = .failed := by
  cases effect with
  | failed action => exact action
  | configured configured => exact configured.action.trans failed
  | started idle _ =>
      rw [failed] at idle
      cases idle
  | wrote writing _ _ =>
      rw [failed] at writing
      cases writing
  | read reading _ _ =>
      rw [failed] at reading
      cases reading
  | split splitting =>
      rw [failed] at splitting
      cases splitting

theorem live_of_failed (failed : state.action = .failed) : Live state := by
  intro idle
  rw [failed] at idle
  cases idle

theorem play_failed (calls : List HandshakeCall) : ∀ {state : HandshakeState},
    state.action = .failed → (play calls state).2.action = .failed := by
  induction calls with
  | nil => exact id
  | cons call calls ih =>
      intro state failed
      exact ih ((perform_effect (live_of_failed failed) call).stays_failed failed)

/-- Along a whole run; the induction is over the calls. -/
theorem play_left (calls : List HandshakeCall) : ∀ {state : HandshakeState}, Live state →
    (play calls state).1.map HandshakeEvent.action <+: state.left ∧
      ((play calls state).2.action = .failed ∨
        (play calls state).1.map HandshakeEvent.action ++ (play calls state).2.left =
          state.left) := by
  induction calls with
  | nil => exact fun _ => ⟨List.nil_prefix, Or.inr rfl⟩
  | cons call calls ih =>
      intro state live
      have effect := perform_effect live call
      obtain ⟨later, final⟩ := ih (effect.live live)
      rw [play]
      simp only [List.map_append, List.append_assoc]
      rcases effect.left with ⟨failed, nothing⟩ | first
      · have stuck : (call.perform state).2.left = [] := by rw [HandshakeState.left, failed]
        rw [stuck, List.prefix_nil] at later
        rw [nothing, later]
        exact ⟨List.nil_prefix, Or.inl (play_failed calls failed)⟩
      · rw [← first]
        refine ⟨List.prefix_append_right_inj _ |>.mpr later, final.imp id fun whole => ?_⟩
        rw [whole]

/-! ## From a new state on -/

/-- What both sides of a protocol begin with. -/
structure Begins (crypto : Crypto) (protocolName : String) (role : Role) (pattern : Pattern)
    (symmetric : SymmetricState) (psk : Bool) (state : HandshakeState) : Prop where
  named : ∃ dh, Named crypto protocolName dh psk pattern symmetric
  symmetric : state.symmetric = symmetric
  isInitiator : state.isInitiator = (role == .initiator)
  patternIndex : state.patternIndex = 0
  action : state.action = .noAction
  preSharedKey : state.preSharedKey = none
  requirements : Requirements state.requirements
    (owns pattern.flags (role == .initiator) .static)
    (required pattern.flags (role == .initiator)) (required pattern.flags !(role == .initiator))
    false psk
  pattern : state.pattern = pattern

theorem new_begins {crypto : Crypto} {protocolName : String} {role : Role}
    (created : new crypto protocolName role = .ok state) :
    ∃ pattern symmetric psk,
      Begins crypto protocolName role pattern symmetric psk state := by
  rw [new] at created
  split at created
  · rename_i protocolPrefix patternId dh cipher hash components
    split at created
    · cases created
    · split at created
      · cases created
      · rename_i pattern found
        obtain ⟨_, _, created⟩ := bind_eq_ok created
        obtain ⟨symmetric, symmetric_eq, created⟩ := bind_eq_ok created
        obtain ⟨_, _, created⟩ := bind_eq_ok created
        obtain ⟨_, _, created⟩ := bind_eq_ok created
        obtain ⟨_, _, created⟩ := bind_eq_ok created
        obtain ⟨_, _, created⟩ := bind_eq_ok created
        obtain ⟨_, _, created⟩ := bind_eq_ok created
        obtain ⟨_, _, created⟩ := bind_eq_ok created
        cases created
        have bits := computeRequirements_bits (flagsOf_flagged found role) protocolPrefix false
          (extraReqs_spare pattern patternId)
        rw [Bool.and_false] at bits
        exact ⟨pattern, symmetric, protocolPrefix == "NoisePSK",
          { named := ⟨dh, protocolPrefix, patternId, cipher, hash, components, rfl, found,
              symmetric_eq⟩
            symmetric := rfl
            isInitiator := rfl
            pattern := rfl
            patternIndex := rfl
            action := rfl
            preSharedKey := rfl
            requirements := bits }⟩
  · cases created

theorem Begins.live {crypto : Crypto} {protocolName : String} {role : Role} {pattern : Pattern}
    {symmetric : SymmetricState} {psk : Bool}
    (begins : Begins crypto protocolName role pattern symmetric psk state) : Live state := by
  have bits := begins.requirements
  have ownHashed : state.requires localPremsg = _ := bits.localPremsg
  have otherHashed : state.requires remotePremsg = _ := bits.remotePremsg
  have own : state.requires localRequired = _ := bits.localRequired
  have other : state.requires remoteRequired = _ := bits.remoteRequired
  refine fun _ => ⟨fun needed => ?_, fun needed => ?_, bits.fallbackPremsg, fun there => ?_⟩
  · rw [own, ← ownHashed, needed, Bool.or_true]
  · rw [other, ← otherHashed, needed]
  · rw [begins.preSharedKey] at there
    cases there

def sampleName : String := "Noise_N_25519_AESGCM_SHA256"

def sampleSender : List HandshakeCall :=
  [.setRemotePublicKey [27], .start, .writeMessage (fun _ => [5]) 40 0 (some [1]), .split []]

def sampleReceiver : List HandshakeCall :=
  [.setLocalPrivateKey [9], .start, .readMessage (15 :: 1 :: List.replicate 16 0) 40, .split []]

def hashAfter (role : Role) (calls : List HandshakeCall) : Option Bytes :=
  match HandshakeState.new sampleCrypto sampleName role with
  | .ok state => (getHandshakeHash (play calls state).2).1.toOption
  | .error _ => none

theorem hashAfter_known {role : Role} {calls : List HandshakeCall} {hash : Bytes}
    (known : hashAfter role calls = some hash) :
    ∃ state, HandshakeState.new sampleCrypto sampleName role = .ok state ∧
      (getHandshakeHash (play calls state).2).1 = .ok hash := by
  rw [hashAfter] at known
  split at known
  · rename_i state created
    exact ⟨state, created, eq_ok_of_toOption known⟩
  · cases known

theorem sampleSender_hash :
    hashAfter .initiator sampleSender = some (List.replicate 32 225) := by
  decide +kernel

end Conclave.NoiseProtocol
