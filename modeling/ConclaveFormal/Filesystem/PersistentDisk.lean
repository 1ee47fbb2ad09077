import ConclaveFormal.Lib.Bytes
import ConclaveFormal.Lib.Transition
import ConclaveFormal.Lib.TwoLevel
import Mathlib.Data.Nat.Sqrt
import Mathlib.Logic.Function.Basic

/-!
# The persistent disk

The file system of an enclave keeps its sectors in a file of the host.  Each sector is
encrypted with its place in the file as the initialisation vector, and two shuffled
tables say where that place is.
-/

set_option autoImplicit false

namespace Conclave.Filesystem

open Conclave.Lib

/-! ## Sizes -/

def SECTOR_SIZE : Nat := 512
def SGX_AESGCM_MAC_SIZE : Nat := 16
def SECTOR_SIZE_AND_MAC : Nat := SECTOR_SIZE + SGX_AESGCM_MAC_SIZE
def IV_SIZE : Nat := 12

def UINT_MAX : Nat := 4294967295

/-- A larger drive is refused when the file systems are set up. -/
def kMaxPersistentSize : Nat := UINT_MAX * SECTOR_SIZE

structure Sector where
  bytes : Bytes
  size : bytes.length = SECTOR_SIZE
  deriving DecidableEq

structure EncryptedSector where
  bytes : Bytes
  size : bytes.length = SECTOR_SIZE_AND_MAC
  deriving DecidableEq

def EncryptedSector.zero : EncryptedSector :=
  ⟨List.replicate SECTOR_SIZE_AND_MAC 0, List.length_replicate⟩

/-! ## What the disk rests on -/

/-- SHA-256, AES-GCM with the key and the initialisation vector, and `std::shuffle` with the
engine seeded by a number. -/
structure Primitives where
  sha256 : Bytes → Bytes
  encrypt : Bytes → Bytes → Sector → EncryptedSector
  decrypt : Bytes → Bytes → EncryptedSector → Option Sector
  shuffle : Nat → List Nat → List Nat

structure Primitives.Lawful (primitives : Primitives) : Prop where
  decrypt_iff : ∀ key iv ciphertext plaintext,
    primitives.decrypt key iv ciphertext = some plaintext ↔
      ciphertext = primitives.encrypt key iv plaintext
  shuffle_perm : ∀ seed table, (primitives.shuffle seed table).Perm table

/-- The sectors the host has been given, by their index in the file. -/
abbrev HostFile : Type := Nat → Option EncryptedSector

/-- The host returns the size of what it has written. -/
def host_encrypted_write (file : HostFile) (buf : EncryptedSector) (index : Nat) :
    Int × HostFile :=
  (SECTOR_SIZE_AND_MAC, Function.update file index (some buf))

/-- Behind the end of the file the host throws, which is a negative result. -/
def host_encrypted_read (file : HostFile) (sector_id : Nat) : Option EncryptedSector :=
  file sector_id

/-! ## The disk -/

inductive DRESULT where
  | RES_OK
  | RES_ERROR
  | RES_PARERR
  deriving DecidableEq, Repr

structure PersistentDisk where
  num_sectors_ : Nat
  sectors_table_1_ : List Nat
  sectors_table_2_ : List Nat
  encryption_key_ : Bytes
  buffer_writes_ : EncryptedSector
  buffer_index_ : Nat

section Disk

variable (primitives : Primitives)

def asciiBytes (text : String) : Bytes := text.toList.map fun c => UInt8.ofNat c.toNat

def getHashFromKey (derivation_text : String) (key : Bytes) : Bytes :=
  primitives.sha256 (asciiBytes derivation_text ++ key)

namespace PersistentDisk

def new (size : Nat) (encryption_key : Bytes) : PersistentDisk where
  num_sectors_ := size / SECTOR_SIZE
  sectors_table_1_ := []
  sectors_table_2_ := []
  encryption_key_ := (getHashFromKey primitives "R3 persistent filesystem I" encryption_key).take 16
  buffer_writes_ := .zero
  buffer_index_ := 0

/-- `std::ceil(std::sqrt(num_sectors))`, which is exact for less than 2^32 sectors. -/
def squareRoot (num_sectors : Nat) : Nat :=
  if num_sectors.sqrt * num_sectors.sqrt = num_sectors then num_sectors.sqrt
  else num_sectors.sqrt + 1

def sizeTable1 (num_sectors : Nat) : Nat :=
  squareRoot num_sectors - squareRoot num_sectors % SECTOR_SIZE + SECTOR_SIZE

def sizeTable2 (num_sectors : Nat) : Nat := max (num_sectors / sizeTable1 num_sectors) 1

def seed (disk : PersistentDisk) : Nat :=
  ofBigEndian ((getHashFromKey primitives "R3 persistent filesystem II"
    disk.encryption_key_).take 8).reverse

def prepareSectorTables (disk : PersistentDisk) : PersistentDisk :=
  let shuffle := primitives.shuffle (disk.seed primitives)
  { disk with
    sectors_table_1_ :=
      shuffle (disk.sectors_table_1_ ++ List.range (sizeTable1 disk.num_sectors_))
    sectors_table_2_ :=
      shuffle (disk.sectors_table_2_ ++ List.range (sizeTable2 disk.num_sectors_)) }

def diskStart (disk : PersistentDisk) : PersistentDisk := disk.prepareSectorTables primitives

/-- `none` is an access behind the end of a vector, whose result is undefined. -/
def mapSectorId (disk : PersistentDisk) (sector_id : Nat) : Option Nat := do
  let size_table_2 := disk.sectors_table_2_.length
  let bucket_id := sector_id / size_table_2
  let offset_id := sector_id % size_table_2
  let bucket ← disk.sectors_table_1_[bucket_id]?
  let offset ← disk.sectors_table_2_[offset_id]?
  return bucket * size_table_2 + offset

end PersistentDisk

/-- The bytes of the `unsigned long`, lowest first, in a buffer of zeros. -/
def initialisationVector (sector_id : Nat) : Bytes :=
  (bigEndian 8 sector_id).reverse ++ List.replicate (IV_SIZE - 8) 0

/-! ## Reading and writing -/

/-- For the specification only: a call of `encrypt` with the sector it was made for. -/
structure Encryption where
  sector : UInt32
  iv : Bytes
  plaintext : Sector
  deriving DecidableEq

/-- A disk and the host's file.  The last two fields are for the specification only: all calls
of `encrypt`, the latest first, and whether this disk has made one since it was opened. -/
structure Machine where
  disk : PersistentDisk
  file : HostFile
  encryptions : List Encryption
  hasWritten : Bool

namespace Machine

def flush (machine : Machine) : DRESULT × Machine :=
  let (res, file) :=
    host_encrypted_write machine.file machine.disk.buffer_writes_ machine.disk.buffer_index_
  let machine := { machine with file := file }
  if res < 0 then (.RES_ERROR, machine) else (.RES_OK, machine)

def readSectors (machine : Machine) : UInt32 → Nat → Option (DRESULT × List Sector)
  | _, 0 => some (.RES_OK, [])
  | sector, num_reads + 1 => do
      let sector_id ← machine.disk.mapSectorId sector.toNat
      match host_encrypted_read machine.file sector_id with
      | none => return (.RES_ERROR, [])
      | some buffer_encryption =>
          match primitives.decrypt machine.disk.encryption_key_ (initialisationVector sector_id)
              buffer_encryption with
          | none => return (.RES_ERROR, [])
          | some plaintext => do
              let (result, output) ← machine.readSectors (sector + 1) num_reads
              return (result, plaintext :: output)

/-- The result is `none` if it is undefined. -/
def diskRead (machine : Machine) (sector : UInt32) (num_reads : Nat) :
    Option (DRESULT × List Sector) × Machine :=
  match machine.flush with
  | (.RES_OK, machine) => (machine.readSectors primitives sector num_reads, machine)
  | (_, machine) => (some (.RES_ERROR, []), machine)

/-- The encrypted sector and its index stay in the buffer. -/
def encryptInto (machine : Machine) (sector : UInt32) (sector_id : Nat) (plaintext : Sector) :
    Machine :=
  let iv := initialisationVector sector_id
  { machine with
    disk := { machine.disk with
      buffer_writes_ := primitives.encrypt machine.disk.encryption_key_ iv plaintext
      buffer_index_ := sector_id }
    encryptions := ⟨sector, iv, plaintext⟩ :: machine.encryptions
    hasWritten := true }

def diskWrite (machine : Machine) : UInt32 → List Sector → Option DRESULT × Machine
  | _, [] => (some .RES_OK, machine)
  | sector, plaintext :: input =>
      match machine.disk.mapSectorId sector.toNat with
      | none => (none, machine)
      | some sector_id =>
          match (machine.encryptInto primitives sector sector_id plaintext).flush with
          | (.RES_OK, machine) => machine.diskWrite (sector + 1) input
          | (_, machine) => (some .RES_ERROR, machine)

end Machine

inductive Command where
  | CTRL_SYNC
  | GET_SECTOR_COUNT
  | GET_SECTOR_SIZE
  | GET_BLOCK_SIZE
  | other
  deriving DecidableEq

/-- The result and what is stored in the buffer of the caller. -/
def Machine.diskIoCtl (machine : Machine) : Command → (DRESULT × Option Nat) × Machine
  | .CTRL_SYNC =>
      let (result, machine) := machine.flush
      ((result, none), machine)
  | .GET_BLOCK_SIZE => ((.RES_PARERR, none), machine)
  | .GET_SECTOR_SIZE => ((.RES_OK, some SECTOR_SIZE), machine)
  | .GET_SECTOR_COUNT => ((.RES_OK, some machine.disk.num_sectors_), machine)
  | .other => ((.RES_ERROR, none), machine)

/-! ## Runs -/

/-- `reopen` closes the disk and opens another one over the same file. -/
inductive Operation where
  | diskRead (sector : UInt32) (num_reads : Nat)
  | diskWrite (sector : UInt32) (input : List Sector)
  | diskIoCtl (cmd : Command)
  | reopen

variable (size : Nat) (encryption_key : Bytes)

def openDisk : PersistentDisk :=
  (PersistentDisk.new primitives size encryption_key).diskStart primitives

def start : Machine := ⟨openDisk primitives size encryption_key, fun _ => none, [], false⟩

/-- Whether the operation was defined, and the machine after it. -/
def perform (machine : Machine) : Operation → Bool × Machine
  | .diskRead sector num_reads =>
      let (result, machine) := machine.diskRead primitives sector num_reads
      (result.isSome, machine)
  | .diskWrite sector input =>
      let (result, machine) := machine.diskWrite primitives sector input
      (result.isSome, machine)
  | .diskIoCtl cmd => (true, (machine.diskIoCtl cmd).2)
  | .reopen =>
      (true, { machine with disk := openDisk primitives size encryption_key, hasWritten := false })

/-- A run does not go on from an undefined operation. -/
def step (machine : Machine) (operation : Operation) : Option Machine :=
  let (defined, machine) := perform primitives size encryption_key machine operation
  if defined then some machine else none

end Disk

end Conclave.Filesystem
