import ConclaveFormal.NoiseProtocol.Pattern
import ConclaveFormal.NoiseProtocol.SymmetricState

/-!
# Handshake states

`HandshakeState` runs one side of a handshake.  The two loops over the pattern
are recursions over the tokens that are left, and `random` stands for the random
number generator: it is what a key generated at a position of the pattern is
filled with.  Messages are written from an offset of a buffer of a given size.
-/

set_option autoImplicit false

namespace Conclave.NoiseProtocol

open Conclave.Lib Attempt Pattern

inductive Role where
  | initiator
  | responder
  deriving DecidableEq, Repr

inductive Action where
  | noAction
  | writeMessage
  | readMessage
  | failed
  | split
  | complete
  deriving DecidableEq, Repr

/-! ## Requirements -/

def localRequired : UInt32 := 0x01

def remoteRequired : UInt32 := 0x02

def pskRequired : UInt32 := 0x04

def fallbackPremsg : UInt32 := 0x08

def localPremsg : UInt32 := 0x10

def remotePremsg : UInt32 := 0x20

def fallbackPossible : UInt32 := 0x40

def computeRequirements (flags : UInt16) (protocolPrefix : String) (isFallback : Bool) : UInt32 :=
  (if flags &&& flagLocalStatic ≠ 0 then localRequired else 0) |||
    (if flags &&& flagLocalRequired ≠ 0 then localRequired ||| localPremsg else 0) |||
    (if flags &&& flagRemoteRequired ≠ 0 then remoteRequired ||| remotePremsg else 0) |||
    (if flags &&& (flagRemoteEphemReq ||| flagLocalEphemReq) ≠ 0 ∧ isFallback = true then
      fallbackPremsg else 0) |||
    (if protocolPrefix = "NoisePSK" then pskRequired else 0)

/-! ## The state -/

structure HandshakeState where
  symmetric : SymmetricState
  isInitiator : Bool
  localKeyPair : Option DHState
  localEphemeral : Option DHState
  localHybrid : Option DHState
  remotePublicKey : Option DHState
  remoteEphemeral : Option DHState
  remoteHybrid : Option DHState
  action : Action
  requirements : UInt32
  pattern : Pattern
  patternIndex : Nat
  preSharedKey : Option Bytes
  prologue : Option Bytes

/-- The components, without the empty ones at the end. -/
def splitName (protocolName : String) : List String :=
  ((protocolName.toList.splitOn '_').reverse.dropWhile List.isEmpty).reverse.map String.ofList

namespace HandshakeState

def createFor (crypto : Crypto) (flags flag : UInt16) (name : String) :
    Except NoiseError (Option DHState) :=
  if flags &&& flag ≠ 0 then (Noise.createDH crypto name).map some else .ok none

/-- The two components of the name of a Diffie-Hellman function. -/
def regularName (dh : String) : String := String.ofList (dh.toList.takeWhile fun c => c ≠ '+')

def hybridName (dh : String) : String :=
  String.ofList ((dh.toList.dropWhile fun c => c ≠ '+').drop 1)

def checkHybrid (dh : String) (flags : UInt16) : Except NoiseError Unit :=
  if '+' ∈ dh.toList then
    if flags &&& flagLocalHybrid = 0 ∨ flags &&& flagRemoteHybrid = 0 then
      .error (.illegalArgument "Hybrid function specified for non-hybrid pattern")
    else .ok ()
  else if flags &&& flagLocalHybrid ≠ 0 ∨ flags &&& flagRemoteHybrid ≠ 0 then
    .error (.illegalArgument "Hybrid function not specified for hybrid pattern")
  else .ok ()

/-- The flags as one side sees them. -/
def flagsOf (pattern : Pattern) (role : Role) : UInt16 :=
  if role = .responder then reverseFlags pattern.flags else pattern.flags

def extraReqs (pattern : Pattern) (patternId : String) : UInt32 :=
  if pattern.flags &&& flagRemoteRequired ≠ 0 ∧ patternId.length > 1 then fallbackPossible else 0

def new (crypto : Crypto) (protocolName : String) (role : Role) :
    Except NoiseError HandshakeState :=
  match splitName protocolName with
  | [protocolPrefix, patternId, dh, cipher, hash] =>
      if protocolPrefix ≠ "Noise" ∧ protocolPrefix ≠ "NoisePSK" then
        .error (.illegalArgument "Prefix must be Noise or NoisePSK")
      else
        match lookup patternId with
        | none => .error (.illegalArgument "Handshake pattern is not recognized")
        | some pattern => do
            let flags := flagsOf pattern role
            checkHybrid dh flags
            let symmetric ← SymmetricState.new crypto protocolName cipher hash
            let localKeyPair ← createFor crypto flags flagLocalStatic (regularName dh)
            let localEphemeral ← createFor crypto flags flagLocalEphemeral (regularName dh)
            let localHybrid ← createFor crypto flags flagLocalHybrid (hybridName dh)
            let remotePublicKey ← createFor crypto flags flagRemoteStatic (regularName dh)
            let remoteEphemeral ← createFor crypto flags flagRemoteEphemeral (regularName dh)
            let remoteHybrid ← createFor crypto flags flagRemoteHybrid (hybridName dh)
            return {
              symmetric, localKeyPair, localEphemeral, localHybrid, remotePublicKey,
              remoteEphemeral, remoteHybrid, pattern
              isInitiator := role == .initiator
              action := .noAction
              requirements :=
                extraReqs pattern patternId ||| computeRequirements flags protocolPrefix false
              patternIndex := 0
              preSharedKey := none
              prologue := none }
  | _ => .error (.illegalArgument "Protocol name must have 5 components")

/-! ## Before the handshake -/

abbrev Handshaking := Attempt HandshakeState NoiseError

def setPreSharedKey (key : Bytes) : Handshaking Unit := do
  let state ← get
  if key.length ≠ 32 then
    throw (.illegalArgument "Pre-shared keys must be 32 bytes in length")
  else if state.requirements &&& pskRequired = 0 then
    throw (.unsupportedOperation "Pre-shared keys are not supported for this handshake")
  else if state.action ≠ .noAction then
    throw (.illegalState "Handshake has already started; cannot set pre-shared key")
  else modify fun state => { state with preSharedKey := some key }

def setPrologue (prologue : Bytes) : Handshaking Unit := do
  if (← get).action ≠ .noAction then
    throw (.illegalState "Handshake has already started; cannot set prologue")
  else modify fun state => { state with prologue := some prologue }

/-- `getLocalKeyPair().setPrivateKey(key, 0)`. -/
def setLocalPrivateKey (key : Bytes) : Handshaking Unit := do
  match (← get).localKeyPair with
  | none => throw .nullPointer
  | some keyPair =>
      modify fun state => { state with localKeyPair := some (keyPair.setPrivateKey key) }

/-- `getRemotePublicKey().setPublicKey(key, 0)`. -/
def setRemotePublicKey (key : Bytes) : Handshaking Unit := do
  match (← get).remotePublicKey with
  | none => throw .nullPointer
  | some remote =>
      modify fun state => { state with remotePublicKey := some (remote.setPublicKey key) }

def hasPrivateKey (key : Option DHState) : Bool := key.any DHState.hasPrivateKey

def hasPublicKey (key : Option DHState) : Bool := key.any DHState.hasPublicKey

def setSymmetric (symmetric : SymmetricState) (state : HandshakeState) : HandshakeState :=
  { state with symmetric }

def onSymmetric (change : SymmetricState → SymmetricState) : Handshaking Unit :=
  modify fun state => setSymmetric (change state.symmetric) state

def mixPublicKey (key : Option DHState) : Handshaking Unit :=
  match key with
  | none => throw .nullPointer
  | some dh => onSymmetric fun symmetric => symmetric.mixPublicKey dh

/-- The ephemeral keys of the message that a fallback pattern starts from. -/
def mixFallback (ephemeral hybrid : Option DHState) : Handshaking Unit := do
  mixPublicKey ephemeral
  if hybrid.isSome then mixPublicKey hybrid
  if (← get).preSharedKey.isSome then
    match ephemeral with
    | none => throw .nullPointer
    | some dh => onSymmetric fun symmetric => symmetric.mixPublicKeyIntoCK dh

def whenRequired (requirement : UInt32) (body : Handshaking Unit) : Handshaking Unit := do
  if (← get).requirements &&& requirement ≠ 0 then body

def mixPreSharedKey (key : Option Bytes) : Handshaking Unit :=
  match key with
  | none => pure ()
  | some key => onSymmetric fun symmetric => symmetric.mixPreSharedKey key

/-- Both sides hash the initiator's key first. -/
def mixPremessages : Handshaking Unit := do
  let state ← get
  if state.isInitiator then do
    whenRequired localPremsg (mixPublicKey state.localKeyPair)
    whenRequired fallbackPremsg (mixFallback state.remoteEphemeral state.remoteHybrid)
    whenRequired remotePremsg (mixPublicKey state.remotePublicKey)
  else do
    whenRequired remotePremsg (mixPublicKey state.remotePublicKey)
    whenRequired fallbackPremsg (mixFallback state.localEphemeral state.localHybrid)
    whenRequired localPremsg (mixPublicKey state.localKeyPair)

def start : Handshaking Unit := do
  let state ← get
  if state.action ≠ .noAction then
    throw (.illegalState "Handshake has already started; cannot start again")
  else if state.pattern.flags &&& flagRemoteEphemReq ≠ 0 ∧
      state.requirements &&& fallbackPremsg = 0 then
    throw (.unsupportedOperation "Cannot start a fallback pattern")
  else if state.requirements &&& localRequired ≠ 0 ∧ hasPrivateKey state.localKeyPair = false then
    throw (.illegalState "Local static key required")
  else if state.requirements &&& remoteRequired ≠ 0 ∧
      hasPublicKey state.remotePublicKey = false then
    throw (.illegalState "Remote static key required")
  else if state.requirements &&& pskRequired ≠ 0 ∧ state.preSharedKey.isNone then
    throw (.illegalState "Pre-shared key required")
  else do
    onSymmetric fun symmetric => symmetric.mixHash (state.prologue.getD [])
    mixPreSharedKey state.preSharedKey
    mixPremessages
    modify fun state =>
      { state with action := if state.isInitiator then .writeMessage else .readMessage }

/-- The symmetric state of a protocol whose name differs in the pattern. -/
def fallbackSymmetric (crypto : Crypto) (protocolName patternName : String) :
    Except NoiseError SymmetricState :=
  let components := (splitName protocolName).set 1 patternName
  SymmetricState.new crypto (String.intercalate "_" components) (components.getD 3 "")
    (components.getD 4 "")

def fallbackRequirements (protocolName : String) (flags : UInt16) : UInt32 :=
  computeRequirements flags ((splitName protocolName).getD 0 "") true

/-- The initiator keeps its ephemeral key and forgets what it knows of the other side. -/
def becomeResponder (newPattern : Pattern) (newSymmetric : SymmetricState)
    (state : HandshakeState) : HandshakeState :=
  { state with
    symmetric := newSymmetric
    isInitiator := false
    remoteEphemeral := state.remoteEphemeral.map DHState.clearKey
    remoteHybrid := state.remoteHybrid.map DHState.clearKey
    remotePublicKey := state.remotePublicKey.map DHState.clearKey
    action := .noAction
    pattern := newPattern
    patternIndex := 0
    requirements := fallbackRequirements state.symmetric.name (reverseFlags newPattern.flags) }

/-- The responder keeps the ephemeral key it has received. -/
def becomeInitiator (newPattern : Pattern) (newSymmetric : SymmetricState)
    (state : HandshakeState) : HandshakeState :=
  { state with
    symmetric := newSymmetric
    isInitiator := true
    localEphemeral := state.localEphemeral.map DHState.clearKey
    localHybrid := state.localHybrid.map DHState.clearKey
    remotePublicKey :=
      if newPattern.flags &&& flagRemoteRequired = 0 then
        state.remotePublicKey.map DHState.clearKey
      else state.remotePublicKey
    action := .noAction
    pattern := newPattern
    patternIndex := 0
    requirements := fallbackRequirements state.symmetric.name newPattern.flags }

/-- Starts over with a fallback pattern, in which the sides change their roles. -/
def fallback (crypto : Crypto) (patternName : String) : Handshaking Unit := do
  let state ← get
  if state.requirements &&& fallbackPossible = 0 then
    throw (.unsupportedOperation "Previous handshake pattern does not support fallback")
  else
    match lookup patternName with
    | none => throw (.unsupportedOperation "New pattern is not a fallback pattern")
    | some newPattern =>
        let waiting := if state.isInitiator then Action.readMessage else .writeMessage
        let ephemeral := if state.isInitiator then state.localEphemeral else state.remoteEphemeral
        let message :=
          if state.isInitiator then "Initiator cannot fall back from this state"
          else "Responder cannot fall back from this state"
        if newPattern.flags &&& flagRemoteEphemReq = 0 then
          throw (.unsupportedOperation "New pattern is not a fallback pattern")
        else if state.action ≠ .failed ∧ state.action ≠ waiting then
          throw (.illegalState message)
        else
          match ephemeral with
          | none => throw .nullPointer
          | some key =>
              if key.hasPublicKey = false then throw (.illegalState message)
              else
                match fallbackSymmetric crypto state.symmetric.name patternName with
                | .error e => throw e
                | .ok newSymmetric =>
                    modify (if state.isInitiator then becomeResponder newPattern newSymmetric
                      else becomeInitiator newPattern newSymmetric)

/-! ## Tokens -/

/-- `none` for a key is `null`. -/
def mixDH (localKey remoteKey : Option DHState) : Handshaking Unit :=
  match localKey, remoteKey with
  | some localKey, some remoteKey =>
      match localKey.calculate remoteKey with
      | .error e => throw e
      | .ok shared => onSymmetric fun symmetric => symmetric.mixKey shared
  | _, _ => throw (.illegalState "Pattern definition error")

/-- The tokens that mix a shared secret do the same in both directions. -/
def mixToken (token : Token) : Handshaking Unit := do
  let state ← get
  match token with
  | .ee => mixDH state.localEphemeral state.remoteEphemeral
  | .es =>
      if state.isInitiator then mixDH state.localEphemeral state.remotePublicKey
      else mixDH state.localKeyPair state.remoteEphemeral
  | .se =>
      if state.isInitiator then mixDH state.localKeyPair state.remoteEphemeral
      else mixDH state.localEphemeral state.remotePublicKey
  | .ss => mixDH state.localKeyPair state.remotePublicKey
  | .ff => mixDH state.localHybrid state.remoteHybrid
  | _ => pure ()

def encryptAndHash (plaintext : Bytes) (space : Nat) : Handshaking Bytes :=
  within symmetric setSymmetric (SymmetricState.encryptAndHash plaintext space)

def decryptAndHash (ciphertext : Bytes) (space : Nat) : Handshaking Bytes :=
  within symmetric setSymmetric (SymmetricState.decryptAndHash ciphertext space)

/-- What one token adds to a message with `space` bytes left. -/
def writeToken (random : Bytes) (space : Nat) (token : Token) : Handshaking Bytes := do
  let state ← get
  match token with
  | .e =>
      match state.localEphemeral with
      | none => throw (.illegalState "Pattern definition error")
      | some keyPair =>
          let keyPair := keyPair.generateKeyPair random
          modify fun state => { state with localEphemeral := some keyPair }
          if space < keyPair.algorithm.keyLength then throw .shortBuffer
          else do
            onSymmetric fun symmetric => symmetric.mixHash keyPair.publicKey
            if state.preSharedKey.isSome then
              onSymmetric fun symmetric => symmetric.mixKey keyPair.publicKey
            return keyPair.publicKey
  | .s =>
      match state.localKeyPair with
      | none => throw (.illegalState "Pattern definition error")
      | some keyPair =>
          if space < keyPair.algorithm.keyLength + state.symmetric.getMACLength then
            throw .shortBuffer
          else encryptAndHash keyPair.publicKey space
  | .f =>
      match state.localHybrid with
      | none => throw (.illegalState "Pattern definition error")
      | some keyPair =>
          let keyPair := keyPair.generateKeyPair random
          modify fun state => { state with localHybrid := some keyPair }
          if space < keyPair.algorithm.keyLength + state.symmetric.getMACLength then
            throw .shortBuffer
          else encryptAndHash keyPair.publicKey space
  | token => do
      mixToken token
      return []

/-- A public key of the other side, sent encrypted as soon as there is a key. -/
def readPublicKey (remote : DHState) (message : Bytes) : Handshaking (DHState × Bytes) := do
  let len := remote.algorithm.keyLength
  let macLen := (← get).symmetric.getMACLength
  if message.length < len + macLen then throw .shortBuffer
  else do
    let key ← decryptAndHash (message.take (len + macLen)) len
    if key.length ≠ len then throw .shortBuffer
    else return (remote.setPublicKey key, message.drop (len + macLen))

/-- What one token leaves of a message. -/
def readToken (message : Bytes) (token : Token) : Handshaking Bytes := do
  let state ← get
  match token with
  | .e =>
      match state.remoteEphemeral with
      | none => throw (.illegalState "Pattern definition error")
      | some remote =>
          let len := remote.algorithm.keyLength
          if message.length < len then throw .shortBuffer
          else do
            let remote := remote.setPublicKey (message.take len)
            onSymmetric fun symmetric => symmetric.mixHash (message.take len)
            modify fun state => { state with remoteEphemeral := some remote }
            if remote.isNullPublicKey then throw (.badPadding "Null remote public key")
            else do
              if state.preSharedKey.isSome then
                onSymmetric fun symmetric => symmetric.mixKey (message.take len)
              return message.drop len
  | .s =>
      match state.remotePublicKey with
      | none => throw (.illegalState "Pattern definition error")
      | some remote => do
          let (remote, message) ← readPublicKey remote message
          modify fun state => { state with remotePublicKey := some remote }
          return message
  | .f =>
      match state.remoteHybrid with
      | none => throw (.illegalState "Pattern definition error")
      | some remote => do
          let (remote, message) ← readPublicKey remote message
          modify fun state => { state with remoteHybrid := some remote }
          return message
  | token => do
      mixToken token
      return message

/-! ## Messages -/

/-- The tokens up to the next change of direction. -/
def writeTokens (random : Nat → Bytes) : List Token → Nat → Handshaking Bytes
  | [], _ => do
      modify fun state => { state with action := .split }
      return []
  | token :: tokens, space => do
      let index := (← get).patternIndex
      modify fun state => { state with patternIndex := index + 1 }
      if token = .flipDir then
        modify fun state => { state with action := .readMessage }
        return []
      else do
        let written ← writeToken (random index) space token
        let rest ← writeTokens random tokens (space - written.length)
        return written ++ rest

def readTokens : List Token → Bytes → Handshaking Bytes
  | [], message => do
      modify fun state => { state with action := .split }
      return message
  | token :: tokens, message => do
      modify fun state => { state with patternIndex := state.patternIndex + 1 }
      if token = .flipDir then
        modify fun state => { state with action := .writeMessage }
        return message
      else do
        let message ← readToken message token
        readTokens tokens message

/-- The `finally` block of a message that was not successful. -/
def failing {α : Type} (body : Handshaking α) : Handshaking α :=
  handle body fun e => do
    modify fun state => { state with action := .failed }
    throw e

def remaining (state : HandshakeState) : List Token :=
  state.pattern.tokens.drop state.patternIndex

/-- The message that is written to a buffer of `size` bytes from `messageOffset` on; there may be
no payload. -/
def writeMessage (random : Nat → Bytes) (size messageOffset : Nat) (payload : Option Bytes) :
    Handshaking Bytes := do
  let state ← get
  if state.action ≠ .writeMessage then
    throw (.illegalState "Handshake state does not allow writing messages")
  else if messageOffset > size then throw .shortBuffer
  else
    failing do
      let keys ← writeTokens random state.remaining (size - messageOffset)
      let body ← encryptAndHash (payload.getD []) (size - messageOffset - keys.length)
      return keys ++ body

/-- The payload of a message, for a buffer with room for `space` bytes. -/
def readMessage (message : Bytes) (space : Nat) : Handshaking Bytes := do
  let state ← get
  if state.action ≠ .readMessage then
    throw (.illegalState "Handshake state does not allow reading messages")
  else
    failing do
      let body ← readTokens state.remaining message
      decryptAndHash body space

def split (secondaryKey : Bytes) : Handshaking CipherStatePair := do
  let state ← get
  if state.action ≠ .split then throw (.illegalState "Handshake has not finished")
  else
    match state.symmetric.split secondaryKey with
    | .error e => throw e
    | .ok pair => do
        modify fun state => { state with action := .complete }
        return if state.isInitiator then pair else pair.swap

def getHandshakeHash : Handshaking Bytes := do
  let state ← get
  if state.action ≠ .split ∧ state.action ≠ .complete then
    throw (.illegalState "Handshake has not completed")
  else return state.symmetric.h

end HandshakeState

end Conclave.NoiseProtocol
