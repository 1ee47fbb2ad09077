import ConclaveFormal.Lib.Bytes

/-!
# Digest objects

A `MessageDigest` is an object that is fed piece by piece and asked for the
digest.  `play` makes any run of calls on one object, and `expected` is what a
function of the bytes alone answers to the same run.
-/

set_option autoImplicit false

namespace Conclave.NoiseCrypto

open Conclave.Lib

/-- The engine of a `MessageDigest`; `engineUpdateAll` is the `engineUpdate` of an array. -/
structure MessageDigest where
  State : Type
  new : State
  engineGetDigestLength : Nat
  engineReset : State → State
  engineUpdate : State → UInt8 → State
  engineUpdateAll : State → Bytes → State
  engineDigest : State → Bytes × State

inductive DigestCall where
  | reset
  | update (input : UInt8)
  | updateAll (input : Bytes)
  | digest
  deriving DecidableEq, Repr

namespace MessageDigest

variable (engine : MessageDigest)

/-! ## Runs -/

def perform (state : engine.State) : DigestCall → engine.State × List Bytes
  | .reset => (engine.engineReset state, [])
  | .update input => (engine.engineUpdate state input, [])
  | .updateAll input => (engine.engineUpdateAll state input, [])
  | .digest =>
      let (output, state) := engine.engineDigest state
      (state, [output])

/-- The digests that a run of calls gives, in order. -/
def play (state : engine.State) : List DigestCall → List Bytes
  | [] => []
  | call :: calls =>
      let (state, output) := engine.perform state call
      output ++ play state calls

/-- The bytes since the last reset, of which there are none to speak of after a digest. -/
def fed : Option Bytes → DigestCall → Option Bytes
  | _, .reset => some []
  | data, .update input => data.map fun data => data ++ [input]
  | data, .updateAll input => data.map fun data => data ++ input
  | _, .digest => none

/-- No digest is asked for before the object has been reset. -/
def Orderly : Option Bytes → List DigestCall → Prop
  | _, [] => True
  | data, call :: calls => (call = .digest → data.isSome) ∧ Orderly (fed data call) calls

def expected (hash : Bytes → Bytes) : Option Bytes → List DigestCall → List Bytes
  | _, [] => []
  | data, call :: calls =>
      (if call = .digest then [hash (data.getD [])] else []) ++ expected hash (fed data call) calls

/-! ## Objects that compute a function -/

/-- The digest of a state that has `absorbed` some bytes since it was reset is
their `hash`, however they were fed. -/
structure Computes (hash : Bytes → Bytes) where
  Absorbed : engine.State → Bytes → Prop
  reset : ∀ state, Absorbed (engine.engineReset state) []
  update : ∀ {state data} (input : UInt8), Absorbed state data →
    Absorbed (engine.engineUpdate state input) (data ++ [input])
  updateAll : ∀ {state data} (input : Bytes), Absorbed state data →
    Absorbed (engine.engineUpdateAll state input) (data ++ input)
  digest : ∀ {state data}, Absorbed state data → (engine.engineDigest state).1 = hash data

variable {engine} {hash : Bytes → Bytes}

theorem Computes.step (computes : engine.Computes hash) {state : engine.State}
    {data : Option Bytes} (absorbed : ∀ bytes, data = some bytes → computes.Absorbed state bytes)
    (call : DigestCall) :
    ∀ bytes, fed data call = some bytes →
      computes.Absorbed (engine.perform state call).1 bytes := by
  intro bytes holds
  cases call with
  | reset =>
      obtain rfl := Option.some.inj holds
      exact computes.reset state
  | update input =>
      obtain ⟨before, known, rfl⟩ := Option.map_eq_some_iff.mp holds
      exact computes.update input (absorbed before known)
  | updateAll input =>
      obtain ⟨before, known, rfl⟩ := Option.map_eq_some_iff.mp holds
      exact computes.updateAll input (absorbed before known)
  | digest => cases holds

/-- Whatever was done with the object, its digests are those of the bytes alone. -/
theorem Computes.play_eq (computes : engine.Computes hash) {state : engine.State}
    {data : Option Bytes} (absorbed : ∀ bytes, data = some bytes → computes.Absorbed state bytes)
    {calls : List DigestCall} (orderly : Orderly data calls) :
    engine.play state calls = expected hash data calls := by
  induction calls generalizing state data with
  | nil => rfl
  | cons call calls ih =>
      obtain ⟨known, orderly⟩ := orderly
      have rest := ih (computes.step absorbed call) orderly
      rw [play, expected, ← rest]
      cases call with
      | digest =>
          obtain ⟨bytes, rfl⟩ := Option.isSome_iff_exists.mp (known rfl)
          rw [if_pos rfl, Option.getD_some, ← computes.digest (absorbed bytes rfl)]
          rfl
      | reset | update | updateAll => rfl

end MessageDigest

end Conclave.NoiseCrypto
