import ConclaveFormal.NoiseProtocol.HandshakeState

/-!
# Which keys a pattern has exchanged

Walking through a pattern, `readyFrom` keeps the list of the key pairs whose
public half the other side has, and checks that a side only sends keys it has and
only mixes keys that have been exchanged.
-/

set_option autoImplicit false

namespace Conclave.NoiseProtocol

open Conclave.Lib

/-- The three keys a side may have. -/
inductive KeySlot where
  | static
  | ephemeral
  | hybrid
  deriving DecidableEq, Repr

/-- Keys whose public half both sides have; the flag tells whether they are the initiator's. -/
abbrev Known := List (Bool × KeySlot)

namespace Token

/-- The key the writer sends. -/
def sent : Token → Option KeySlot
  | e => some .ephemeral
  | s => some .static
  | f => some .hybrid
  | _ => none

/-- The initiator's and the responder's key that are mixed. -/
def mixed : Token → Option (KeySlot × KeySlot)
  | ee => some (.ephemeral, .ephemeral)
  | es => some (.ephemeral, .static)
  | se => some (.static, .ephemeral)
  | ss => some (.static, .static)
  | ff => some (.hybrid, .hybrid)
  | _ => none

end Token

namespace Pattern

/-- The flag of a key the initiator or the responder has. -/
def slotFlag : Bool → KeySlot → UInt16
  | true, .static => flagLocalStatic
  | true, .ephemeral => flagLocalEphemeral
  | true, .hybrid => flagLocalHybrid
  | false, .static => flagRemoteStatic
  | false, .ephemeral => flagRemoteEphemeral
  | false, .hybrid => flagRemoteHybrid

def owns (flags : UInt16) (initiator : Bool) (slot : KeySlot) : Bool :=
  flags &&& slotFlag initiator slot != 0

/-- Whether a static key is part of the messages before the first one. -/
def required (flags : UInt16) (initiator : Bool) : Bool :=
  flags &&& (if initiator then flagLocalRequired else flagRemoteRequired) != 0

def readyFrom (flags : UInt16) : List Token → Bool → Known → Bool
  | [], _, _ => true
  | token :: tokens, writer, known =>
      match token.sent, token.mixed with
      | some slot, _ =>
          owns flags writer slot && readyFrom flags tokens writer ((writer, slot) :: known)
      | none, some (first, second) =>
          decide ((true, first) ∈ known) && decide ((false, second) ∈ known) &&
            readyFrom flags tokens writer known
      | none, none => readyFrom flags tokens (!writer) known

/-- The keys that must be known before the first message: the static ones that are required, and
for a fallback pattern the keys of the message before. -/
def knownBefore (flags : UInt16) : Known :=
  (if required flags true then [(true, .static)] else []) ++
    (if required flags false then [(false, .static)] else []) ++
    (if flags &&& flagRemoteEphemReq ≠ 0 then [(false, .ephemeral)] else []) ++
    (if flags &&& flagRemoteHybridReq ≠ 0 then [(false, .hybrid)] else [])

def ready (pattern : Pattern) : Bool :=
  (knownBefore pattern.flags).all (fun key => owns pattern.flags key.1 key.2) &&
    readyFrom pattern.flags pattern.tokens true (knownBefore pattern.flags)

/-- One pattern mixes the responder's static key without requiring it. -/
example : (patterns.filter fun entry => !entry.2.ready).map Prod.fst = ["IKnoidh+hfs"] := by
  decide

end Pattern

end Conclave.NoiseProtocol
