import ConclaveFormal.Lib.Struct

/-!
# SGX types

The report body and the quote are structs of a fixed size; the signature behind the quote tells its
own length.  All integers in them are little-endian.
-/

set_option autoImplicit false

namespace Conclave.Attestation

open Conclave.Lib BufferReader

/-- `cpuSvn`, `miscSelect`, `reserved1`, `isvExtProdId`, `attributes`, `mrenclave`, `reserved2`,
`mrsigner`, `reserved3`, `configId`, `isvProdId`, `isvSvn`, `configSvn`, `reserved4`, `isvFamilyId`
and `reportData`. -/
def SgxReportBody : Struct := ⟨[16, 4, 12, 16, 16, 32, 32, 32, 32, 64, 2, 2, 2, 42, 16, 64]⟩

namespace SgxReportBody

def miscSelect : Nat := 1
def attributes : Nat := 4
def mrenclave : Nat := 5
def mrsigner : Nat := 7
def isvProdId : Nat := 10
def isvSvn : Nat := 11
def reportData : Nat := 15

end SgxReportBody

/-- `version`, `signType`, `epidGroupId`, `qeIsvSvn`, `pceIsvSvn`, `extendedEpidGroupId`,
`basename` and `reportBody`. -/
def SgxQuote : Struct := ⟨[2, 2, 4, 2, 2, 4, 32, SgxReportBody.size]⟩

def SgxQuote.reportBody : Nat := 7

theorem SgxQuote.has_reportBody :
    SgxQuote.sizes[SgxQuote.reportBody]? = some SgxReportBody.size := rfl

namespace SgxSignedQuote

/-- `UInt32VariableBytes.getSizeRelative`. -/
def getSizeRelative : BufferReader Nat := do
  let bytes ← take 4
  if wrap32 (ofLittleEndian bytes) < 0 then BufferReader.throw .illegalState
  else return (wrap32 (ofLittleEndian bytes)).toNat

def skip : BufferReader Unit := do
  addPosition SgxQuote.size
  let size ← getSizeRelative
  addPosition size

theorem local_skip : Local skip := by
  refine (Local.addPosition _).bind fun _ => Local.bind ?_ fun size => Local.addPosition size
  exact (Local.take 4).bind fun bytes => Local.ite (Local.throw _) (Local.pure _)

end SgxSignedQuote

/-- A cursor over exactly the bytes of a signed quote. -/
structure SgxSignedQuote where
  bytes : Bytes
  sized : SgxSignedQuote.skip bytes = .ok ((), [])
  deriving DecidableEq

namespace SgxSignedQuote

theorem size_le (signedQuote : SgxSignedQuote) : SgxQuote.size ≤ signedQuote.bytes.length := by
  by_contra short
  have threw : addPosition SgxQuote.size signedQuote.bytes = .error .illegalArgument := by
    rw [addPosition, if_neg short]
  have sized := signedQuote.sized
  rw [skip, bind_error threw] at sized
  cases sized

def quote (signedQuote : SgxSignedQuote) : Cursor SgxQuote :=
  ⟨signedQuote.bytes.take SgxQuote.size, List.length_take_of_le signedQuote.size_le⟩

/-- `Cursor.copy`, which takes as many bytes as the quote measures. -/
def copy : BufferReader SgxSignedQuote := do
  let bytes ← BufferReader.copy (sizeOf skip)
  if sized : skip bytes = .ok ((), []) then return ⟨bytes, sized⟩
  else BufferReader.throw .illegalState

theorem reads_copy (signedQuote : SgxSignedQuote) :
    Reads copy signedQuote.bytes signedQuote := by
  intro rest
  have skips : Reads skip signedQuote.bytes () := local_skip.reads signedQuote.sized
  rw [copy, bind_ok (Reads.copy (.sizeOf skips) rest), dif_pos signedQuote.sized]
  rfl

end SgxSignedQuote

def copyReportBody : BufferReader (Cursor SgxReportBody) := do
  let bytes ← BufferReader.copy (pure SgxReportBody.size)
  if sized : bytes.length = SgxReportBody.size then return ⟨bytes, sized⟩
  else BufferReader.throw .illegalState

theorem reads_copyReportBody (reportBody : Cursor SgxReportBody) :
    Reads copyReportBody reportBody.bytes reportBody := by
  intro rest
  rw [copyReportBody, bind_ok (Reads.copy (.pure reportBody.sized) rest), dif_pos reportBody.sized]
  rfl

end Conclave.Attestation
