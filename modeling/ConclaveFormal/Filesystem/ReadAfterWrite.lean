import ConclaveFormal.Filesystem.PersistentDisk

/-!
# Reading what was written

A disk reads back what was last written to a sector, across any number of sessions, as long
as two things do not happen: a sector that the tables do not cover is written, or a disk
that was just opened is read.  It then first writes its empty buffer over the host's
first sector.
-/

set_option autoImplicit false

namespace Conclave.Filesystem

open Conclave.Lib PersistentDisk

/-! ## The tables of a drive -/

section Drive

variable {primitives : Primitives} (lawful : primitives.Lawful) (size : Nat)
  (encryption_key : Bytes)

def numSectors (size : Nat) : Nat := size / SECTOR_SIZE

/-- How many sectors the tables cover. -/
def covered (size : Nat) : Nat := sizeTable1 (numSectors size) * sizeTable2 (numSectors size)

/-- Where the host keeps a sector of the drive. -/
def place (primitives : Primitives) (size : Nat) (encryption_key : Bytes) (sector : UInt32) :
    Option Nat :=
  (openDisk primitives size encryption_key).mapSectorId sector.toNat

theorem openDisk_table1 : (openDisk primitives size encryption_key).sectors_table_1_ =
    primitives.shuffle ((new primitives size encryption_key).seed primitives)
      (List.range (sizeTable1 (numSectors size))) := by
  simp only [openDisk, diskStart, prepareSectorTables, new, List.nil_append, numSectors]

theorem openDisk_table2 : (openDisk primitives size encryption_key).sectors_table_2_ =
    primitives.shuffle ((new primitives size encryption_key).seed primitives)
      (List.range (sizeTable2 (numSectors size))) := by
  simp only [openDisk, diskStart, prepareSectorTables, new, List.nil_append, numSectors]

include lawful in
theorem openDisk_tables :
    (IsTable (openDisk primitives size encryption_key).sectors_table_1_ ∧
      (openDisk primitives size encryption_key).sectors_table_1_.length =
        sizeTable1 (numSectors size)) ∧
    (IsTable (openDisk primitives size encryption_key).sectors_table_2_ ∧
      (openDisk primitives size encryption_key).sectors_table_2_.length =
        sizeTable2 (numSectors size)) := by
  rw [openDisk_table1, openDisk_table2]
  exact ⟨IsTable.of_perm (lawful.shuffle_perm _ _), IsTable.of_perm (lawful.shuffle_perm _ _)⟩

theorem sizeTable2_pos (num_sectors : Nat) : 0 < sizeTable2 num_sectors :=
  lt_of_lt_of_le Nat.one_pos (le_max_right _ _)

include lawful in
theorem place_isSome (sector : UInt32) :
    (∃ sector_id, place primitives size encryption_key sector = some sector_id) ↔
      sector.toNat < covered size := by
  obtain ⟨⟨-, buckets⟩, -, offsets⟩ := openDisk_tables lawful size encryption_key
  have nonempty : 0 < (openDisk primitives size encryption_key).sectors_table_2_.length := by
    rw [offsets]
    exact sizeTable2_pos _
  rw [covered, ← buckets, ← offsets]
  exact twoLevel_isSome nonempty sector.toNat

include lawful in
theorem place_injective {first second : UInt32} {sector_id : Nat}
    (foundFirst : place primitives size encryption_key first = some sector_id)
    (foundSecond : place primitives size encryption_key second = some sector_id) :
    first = second := by
  obtain ⟨⟨buckets, -⟩, offsets, -⟩ := openDisk_tables lawful size encryption_key
  exact UInt32.toNat_inj.mp (twoLevel_injective buckets offsets foundFirst foundSecond)

/-! ## What the host holds -/

/-- What `diskWrite` was given last for the sector. -/
def Machine.lastWritten (machine : Machine) (sector : UInt32) : Option Sector :=
  (machine.encryptions.find? fun encryption => encryption.sector == sector).map
    Encryption.plaintext

def Machine.lastContents (machine : Machine) : UInt32 → Nat → Option (List Sector)
  | _, 0 => some []
  | sector, num_reads + 1 => do
      let plaintext ← machine.lastWritten sector
      let later ← machine.lastContents (sector + 1) num_reads
      return plaintext :: later

/-- The disk is the drive's, but for its buffer. -/
structure OfDrive (primitives : Primitives) (size : Nat) (encryption_key : Bytes)
    (disk : PersistentDisk) : Prop where
  num_sectors_ : disk.num_sectors_ = numSectors size
  sectors_table_1_ : disk.sectors_table_1_ =
    (openDisk primitives size encryption_key).sectors_table_1_
  sectors_table_2_ : disk.sectors_table_2_ =
    (openDisk primitives size encryption_key).sectors_table_2_
  encryption_key_ : disk.encryption_key_ =
    (openDisk primitives size encryption_key).encryption_key_

/-- The host holds the last contents of every sector of the drive, and what is in the buffer of
a disk that has written. -/
structure Sound (primitives : Primitives) (size : Nat) (encryption_key : Bytes)
    (machine : Machine) : Prop where
  disk : OfDrive primitives size encryption_key machine.disk
  fresh : machine.hasWritten = false →
    machine.disk.buffer_writes_ = .zero ∧ machine.disk.buffer_index_ = 0
  synced : machine.hasWritten = true →
    machine.file machine.disk.buffer_index_ = some machine.disk.buffer_writes_
  stored : ∀ sector plaintext, sector.toNat < numSectors size →
    machine.lastWritten sector = some plaintext →
      ∃ sector_id, place primitives size encryption_key sector = some sector_id ∧
        machine.file sector_id = some (primitives.encrypt machine.disk.encryption_key_
          (initialisationVector sector_id) plaintext)

theorem openDisk_ofDrive :
    OfDrive primitives size encryption_key (openDisk primitives size encryption_key) :=
  ⟨rfl, rfl, rfl, rfl⟩

theorem start_sound : Sound primitives size encryption_key (start primitives size encryption_key) :=
  ⟨openDisk_ofDrive size encryption_key, fun _ => ⟨rfl, rfl⟩, fun written => (by cases written),
    fun _ _ _ written => (by cases written)⟩

variable {size encryption_key}

theorem OfDrive.mapSectorId {disk : PersistentDisk}
    (ofDrive : OfDrive primitives size encryption_key disk) (sector : UInt32) :
    disk.mapSectorId sector.toNat = place primitives size encryption_key sector := by
  simp only [place, PersistentDisk.mapSectorId, ofDrive.sectors_table_1_,
    ofDrive.sectors_table_2_]

theorem reopen_sound {machine : Machine} (sound : Sound primitives size encryption_key machine) :
    Sound primitives size encryption_key
      { machine with disk := openDisk primitives size encryption_key, hasWritten := false } := by
  refine ⟨openDisk_ofDrive size encryption_key, fun _ => ⟨rfl, rfl⟩,
    fun written => (by cases written), ?_⟩
  intro sector plaintext inside written
  obtain ⟨sector_id, found, stored⟩ := sound.stored sector plaintext inside written
  rw [sound.disk.encryption_key_] at stored
  exact ⟨sector_id, found, stored⟩

theorem flush_eq (machine : Machine) : machine.flush =
    (.RES_OK, { machine with
      file := Function.update machine.file machine.disk.buffer_index_
        (some machine.disk.buffer_writes_) }) := rfl

/-! ## Flushing -/

/-- Nothing that is stored for a sector of the drive is changed. -/
def KeepsStored (primitives : Primitives) (size : Nat) (encryption_key : Bytes)
    (before after : Machine) : Prop :=
  ∀ sector sector_id, sector.toNat < numSectors size →
    place primitives size encryption_key sector = some sector_id →
      after.file sector_id = before.file sector_id

/-- This disk has written a sector, or its empty buffer does not matter: the host's first sector
holds zeros already, or it belongs to no sector of the drive. -/
def FlushHarmless (primitives : Primitives) (size : Nat) (encryption_key : Bytes)
    (machine : Machine) : Prop :=
  machine.hasWritten = true ∨ machine.file 0 = some .zero ∨
    ∀ sector, sector.toNat < numSectors size →
      place primitives size encryption_key sector ≠ some 0

theorem flush_keepsStored_iff {machine : Machine}
    (sound : Sound primitives size encryption_key machine) :
    KeepsStored primitives size encryption_key machine machine.flush.2 ↔
      FlushHarmless primitives size encryption_key machine := by
  rw [flush_eq]
  cases written : machine.hasWritten with
  | true =>
      have same : Function.update machine.file machine.disk.buffer_index_
          (some machine.disk.buffer_writes_) = machine.file := by
        rw [← sound.synced written, Function.update_eq_self]
      refine ⟨fun _ => Or.inl written, fun _ => ?_⟩
      intro sector sector_id _ _
      simp only [same]
  | false =>
      obtain ⟨buffer, index⟩ := sound.fresh written
      constructor
      · intro keeps
        by_cases zeros : machine.file 0 = some .zero
        · exact Or.inr (Or.inl zeros)
        · refine Or.inr (Or.inr ?_)
          intro sector inside first
          have same := keeps sector 0 inside first
          simp only [buffer, index, Function.update_self] at same
          exact zeros same.symm
      · intro harmless sector sector_id inside found
        simp only [buffer, index]
        by_cases first : sector_id = 0
        · subst first
          rcases harmless with has | zeros | unused
          · rw [written] at has
            cases has
          · rw [Function.update_self, zeros]
          · exact absurd found (unused sector inside)
        · rw [Function.update_of_ne first]

theorem flush_sound {machine : Machine} (sound : Sound primitives size encryption_key machine)
    (harmless : FlushHarmless primitives size encryption_key machine) :
    Sound primitives size encryption_key machine.flush.2 := by
  have keeps := (flush_keepsStored_iff sound).mpr harmless
  refine ⟨sound.disk, sound.fresh, ?_, ?_⟩
  · intro _
    rw [flush_eq]
    exact Function.update_self _ _ _
  · intro sector plaintext inside written
    obtain ⟨sector_id, found, stored⟩ := sound.stored sector plaintext inside written
    rw [← keeps sector sector_id inside found] at stored
    exact ⟨sector_id, found, stored⟩

/-! ## Writing -/

/-- The tables cover the sectors from this one on. -/
def Covered (size : Nat) : UInt32 → Nat → Prop
  | _, 0 => True
  | sector, num + 1 => sector.toNat < covered size ∧ Covered size (sector + 1) num

/-- The machine after one round of `diskWrite`. -/
def Machine.writeSector (primitives : Primitives) (machine : Machine) (sector : UInt32)
    (sector_id : Nat) (plaintext : Sector) : Machine :=
  (machine.encryptInto primitives sector sector_id plaintext).flush.2

theorem lastWritten_writeSector (machine : Machine) (sector other : UInt32) (sector_id : Nat)
    (plaintext : Sector) :
    (machine.writeSector primitives sector sector_id plaintext).lastWritten other =
      if sector = other then some plaintext else machine.lastWritten other := by
  by_cases same : sector = other
  · simp [Machine.lastWritten, Machine.writeSector, flush_eq, Machine.encryptInto, same]
  · simp [Machine.lastWritten, Machine.writeSector, flush_eq, Machine.encryptInto, same]

include lawful in
theorem writeSector_sound {machine : Machine}
    (sound : Sound primitives size encryption_key machine) {sector : UInt32} {sector_id : Nat}
    (found : place primitives size encryption_key sector = some sector_id) (plaintext : Sector) :
    Sound primitives size encryption_key
      (machine.writeSector primitives sector sector_id plaintext) := by
  refine ⟨⟨sound.disk.num_sectors_, sound.disk.sectors_table_1_, sound.disk.sectors_table_2_,
    sound.disk.encryption_key_⟩, fun fresh => (by cases fresh), ?_, ?_⟩
  · intro _
    exact Function.update_self _ _ _
  · intro other last inside written
    rw [lastWritten_writeSector] at written
    by_cases same : sector = other
    · subst same
      rw [if_pos rfl] at written
      cases written
      exact ⟨sector_id, found, Function.update_self _ _ _⟩
    · rw [if_neg same] at written
      obtain ⟨other_id, otherFound, stored⟩ := sound.stored other last inside written
      have apart : other_id ≠ sector_id := by
        rintro rfl
        exact same (place_injective lawful size encryption_key found otherFound)
      exact ⟨other_id, otherFound, (Function.update_of_ne apart _ _).trans stored⟩

theorem diskWrite_cons (machine : Machine) (sector : UInt32) (plaintext : Sector)
    (input : List Sector) :
    machine.diskWrite primitives sector (plaintext :: input) =
      match machine.disk.mapSectorId sector.toNat with
      | none => (none, machine)
      | some sector_id =>
          (machine.writeSector primitives sector sector_id plaintext).diskWrite primitives
            (sector + 1) input := rfl

include lawful in
theorem diskWrite_sound {machine : Machine}
    (sound : Sound primitives size encryption_key machine) {sector : UInt32}
    {input : List Sector} (inTables : Covered size sector input.length) :
    (machine.diskWrite primitives sector input).1 = some .RES_OK ∧
      Sound primitives size encryption_key (machine.diskWrite primitives sector input).2 := by
  induction input generalizing machine sector with
  | nil => exact ⟨rfl, sound⟩
  | cons plaintext input ih =>
      obtain ⟨sector_id, found⟩ :=
        (place_isSome lawful size encryption_key sector).mpr inTables.1
      rw [diskWrite_cons, sound.disk.mapSectorId, found]
      exact ih (writeSector_sound lawful sound found plaintext) inTables.2

include lawful in
theorem covered_of_diskWrite {machine : Machine}
    (sound : Sound primitives size encryption_key machine) {sector : UInt32}
    {input : List Sector} (ok : (machine.diskWrite primitives sector input).1 = some .RES_OK) :
    Covered size sector input.length := by
  induction input generalizing machine sector with
  | nil => trivial
  | cons plaintext input ih =>
      rw [diskWrite_cons, sound.disk.mapSectorId] at ok
      cases found : place primitives size encryption_key sector with
      | none =>
          rw [found] at ok
          cases ok
      | some sector_id =>
          rw [found] at ok
          have inside := (place_isSome lawful size encryption_key sector).mp ⟨sector_id, found⟩
          exact ⟨inside, ih (writeSector_sound lawful sound found plaintext) ok⟩

/-! ## Reading -/

theorem lastContents_flush (machine : Machine) (sector : UInt32) (num_reads : Nat) :
    machine.flush.2.lastContents sector num_reads = machine.lastContents sector num_reads := by
  induction num_reads generalizing sector with
  | zero => rfl
  | succ num_reads ih =>
      rw [Machine.lastContents, ih]
      rfl

include lawful in
theorem readSectors_written {machine : Machine}
    (sound : Sound primitives size encryption_key machine) {sector : UInt32} {num_reads : Nat}
    {contents : List Sector} (inDrive : sector.toNat + num_reads ≤ numSectors size)
    (written : machine.lastContents sector num_reads = some contents) :
    machine.readSectors primitives sector num_reads = some (.RES_OK, contents) := by
  induction num_reads generalizing sector contents with
  | zero =>
      cases written
      rfl
  | succ num_reads ih =>
      obtain ⟨plaintext, last, written⟩ := Option.bind_eq_some_iff.mp written
      obtain ⟨later, lastLater, written⟩ := Option.bind_eq_some_iff.mp written
      cases written
      obtain ⟨sector_id, found, stored⟩ := sound.stored sector plaintext (by omega) last
      have decrypted := (lawful.decrypt_iff machine.disk.encryption_key_
        (initialisationVector sector_id) _ plaintext).mpr rfl
      have next : (sector + 1).toNat + num_reads ≤ numSectors size := by
        rw [UInt32.toNat_add]
        have wrapped := Nat.mod_le (sector.toNat + (1 : UInt32).toNat) (2 ^ 32)
        have one : (1 : UInt32).toNat = 1 := rfl
        omega
      rw [Machine.readSectors, sound.disk.mapSectorId, found]
      simp only [Option.bind_eq_bind, Option.bind_some, host_encrypted_read, stored, decrypted,
        ih next lastLater]
      rfl

/-! ## Runs -/

/-- The sectors are below the sector count of the drive. -/
def Operation.InDrive (size : Nat) : Operation → Prop
  | .diskRead sector num_reads => sector.toNat + num_reads ≤ numSectors size
  | .diskWrite sector input => sector.toNat + input.length ≤ numSectors size
  | .diskIoCtl _ => True
  | .reopen => True

/-- What is expected of an operation: sectors that were written are read back, and nothing but
`diskWrite` changes what is stored. -/
def Faithful (primitives : Primitives) (size : Nat) (encryption_key : Bytes)
    (machine : Machine) : Operation → Prop
  | .diskRead sector num_reads =>
      (∀ contents, sector.toNat + num_reads ≤ numSectors size →
        machine.lastContents sector num_reads = some contents →
          (machine.diskRead primitives sector num_reads).1 = some (.RES_OK, contents)) ∧
        KeepsStored primitives size encryption_key machine
          (machine.diskRead primitives sector num_reads).2
  | .diskWrite sector input => (machine.diskWrite primitives sector input).1 = some .RES_OK
  | .diskIoCtl cmd =>
      KeepsStored primitives size encryption_key machine (machine.diskIoCtl cmd).2
  | .reopen => True

def Admissible (primitives : Primitives) (size : Nat) (encryption_key : Bytes)
    (machine : Machine) : Operation → Prop
  | .diskRead _ _ => FlushHarmless primitives size encryption_key machine
  | .diskWrite sector input => Covered size sector input.length
  | .diskIoCtl .CTRL_SYNC => FlushHarmless primitives size encryption_key machine
  | .diskIoCtl _ => True
  | .reopen => True

include lawful in
theorem faithful_iff_admissible {machine : Machine} {operation : Operation}
    (sound : Sound primitives size encryption_key machine) :
    Faithful primitives size encryption_key machine operation ↔
      Admissible primitives size encryption_key machine operation := by
  cases operation with
  | diskRead sector num_reads =>
      constructor
      · rintro ⟨-, keeps⟩
        exact (flush_keepsStored_iff sound).mp keeps
      · intro harmless
        refine ⟨fun contents inDrive written => ?_, (flush_keepsStored_iff sound).mpr harmless⟩
        rw [← lastContents_flush] at written
        exact readSectors_written lawful (flush_sound sound harmless) inDrive written
  | diskWrite sector input =>
      exact ⟨covered_of_diskWrite lawful sound, fun covered =>
        (diskWrite_sound lawful sound covered).1⟩
  | diskIoCtl cmd =>
      cases cmd with
      | CTRL_SYNC => exact flush_keepsStored_iff sound
      | GET_SECTOR_COUNT => exact ⟨fun _ => trivial, fun _ _ _ _ _ => rfl⟩
      | GET_SECTOR_SIZE => exact ⟨fun _ => trivial, fun _ _ _ _ _ => rfl⟩
      | GET_BLOCK_SIZE => exact ⟨fun _ => trivial, fun _ _ _ _ _ => rfl⟩
      | other => exact ⟨fun _ => trivial, fun _ _ _ _ _ => rfl⟩
  | reopen => exact Iff.rfl

theorem step_of_defined {machine : Machine} {operation : Operation}
    (defined : (perform primitives size encryption_key machine operation).1 = true) :
    step primitives size encryption_key machine operation =
      some (perform primitives size encryption_key machine operation).2 := by
  rw [step]
  dsimp only
  rw [if_pos defined]

theorem step_eq_some {machine next : Machine} {operation : Operation}
    (stepped : step primitives size encryption_key machine operation = some next) :
    next = (perform primitives size encryption_key machine operation).2 := by
  rw [step] at stepped
  dsimp only at stepped
  split at stepped
  · cases stepped
    rfl
  · cases stepped

include lawful in
theorem step_sound {machine next : Machine} {operation : Operation}
    (sound : Sound primitives size encryption_key machine)
    (admissible : Admissible primitives size encryption_key machine operation)
    (stepped : step primitives size encryption_key machine operation = some next) :
    Sound primitives size encryption_key next := by
  rw [step_eq_some stepped]
  cases operation with
  | diskRead sector num_reads => exact flush_sound sound admissible
  | diskWrite sector input => exact (diskWrite_sound lawful sound admissible).2
  | diskIoCtl cmd =>
      cases cmd with
      | CTRL_SYNC => exact flush_sound sound admissible
      | GET_SECTOR_COUNT => exact sound
      | GET_SECTOR_SIZE => exact sound
      | GET_BLOCK_SIZE => exact sound
      | other => exact sound
  | reopen => exact reopen_sound sound

end Drive

/-- Every operation of a run over any number of sessions is as expected exactly when no
uncovered sector is written and no empty buffer is flushed to where it matters. -/
theorem readAfterWrite_iff {primitives : Primitives} (lawful : primitives.Lawful) (size : Nat)
    (encryption_key : Bytes) (operations : List Operation) :
    Meets (step primitives size encryption_key) (Faithful primitives size encryption_key)
        (start primitives size encryption_key) operations ↔
      Meets (step primitives size encryption_key) (Admissible primitives size encryption_key)
        (start primitives size encryption_key) operations :=
  Meets.congr (step_sound lawful) (faithful_iff_admissible lawful)
    (start_sound size encryption_key)

/-- The tables cover a drive if it is small or its size is a multiple of the first table's. -/
theorem numSectors_le_covered_iff (size : Nat) :
    numSectors size ≤ covered size ↔
      numSectors size < sizeTable1 (numSectors size) ∨
        sizeTable1 (numSectors size) ∣ numSectors size := by
  have positive : 0 < sizeTable1 (numSectors size) := Nat.add_pos_right _ (by decide)
  rw [covered, sizeTable2]
  generalize numSectors size = count at *
  generalize sizeTable1 count = buckets at *
  by_cases small : count < buckets
  · rw [Nat.div_eq_of_lt small]
    simp [small, Nat.le_of_lt small]
  · have whole : 1 ≤ count / buckets := (Nat.one_le_div_iff positive).mpr (by omega)
    rw [max_eq_left whole]
    constructor
    · intro fits
      exact Or.inr ⟨count / buckets, Nat.le_antisymm fits (Nat.mul_div_le count buckets)⟩
    · rintro (below | divides)
      · exact absurd below small
      · rw [Nat.mul_div_cancel' divides]

/-! ## A sector that is lost -/

section Example

def plainTag (iv : Bytes) : Bytes :=
  (iv ++ List.replicate SGX_AESGCM_MAC_SIZE 255).take SGX_AESGCM_MAC_SIZE

theorem plainTag_length (iv : Bytes) : (plainTag iv).length = SGX_AESGCM_MAC_SIZE := by
  simp [plainTag]

/-- The tag is the initialisation vector, and nothing is shuffled. -/
def plainPrimitives : Primitives where
  sha256 := fun _ => List.replicate 32 0
  encrypt := fun _ iv plaintext => ⟨plaintext.bytes ++ plainTag iv, by
    rw [List.length_append, plaintext.size, plainTag_length, SECTOR_SIZE_AND_MAC]⟩
  decrypt := fun _ iv ciphertext =>
    if ciphertext.bytes.drop SECTOR_SIZE = plainTag iv then
      some ⟨ciphertext.bytes.take SECTOR_SIZE, by
        rw [List.length_take, ciphertext.size, SECTOR_SIZE_AND_MAC]
        exact Nat.min_eq_left (Nat.le_add_right _ _)⟩
    else none
  shuffle := fun _ table => table

theorem plainPrimitives_lawful : plainPrimitives.Lawful := by
  refine ⟨?_, fun _ table => List.Perm.refl table⟩
  intro key iv ciphertext plaintext
  obtain ⟨cipherBytes, cipherSize⟩ := ciphertext
  obtain ⟨plainBytes, plainSize⟩ := plaintext
  simp only [plainPrimitives, EncryptedSector.mk.injEq]
  constructor
  · intro opened
    split at opened
    · rename_i authentic
      cases opened
      rw [← authentic, List.take_append_drop]
    · cases opened
  · rintro rfl
    rw [if_pos (by rw [← plainSize, List.drop_left])]
    simp only [← plainSize, List.take_left]

def blankSector : Sector := ⟨List.replicate SECTOR_SIZE 32, List.length_replicate⟩

def writtenMachine : Machine :=
  (perform plainPrimitives 100000 [] (start plainPrimitives 100000 [])
    (.diskWrite 0 [blankSector])).2

def reopenedMachine : Machine := (perform plainPrimitives 100000 [] writtenMachine .reopen).2

theorem reopenedMachine_written : reopenedMachine.lastContents 0 1 = some [blankSector] := by
  decide +kernel

theorem reopenedMachine_diskRead :
    (reopenedMachine.diskRead plainPrimitives 0 1).1 = some (.RES_ERROR, []) := by
  decide +kernel

theorem writtenMachine_defined :
    (perform plainPrimitives 100000 [] (start plainPrimitives 100000 [])
      (.diskWrite 0 [blankSector])).1 = true := by decide +kernel

theorem readAfterWrite_iff_blankSector :
    Meets (step plainPrimitives 100000 []) (Faithful plainPrimitives 100000 [])
      (start plainPrimitives 100000 []) [.diskWrite 0 [blankSector], .diskRead 0 1] := by
  apply (readAfterWrite_iff plainPrimitives_lawful 100000 [] _).mpr
  have inTables : (0 : UInt32).toNat < covered 100000 := by decide +kernel
  have harmless : FlushHarmless plainPrimitives 100000 [] writtenMachine :=
    Or.inl (by decide +kernel)
  exact Meets.cons ⟨inTables, trivial⟩ (step_of_defined writtenMachine_defined)
    ⟨harmless, fun _ _ => trivial⟩

/-- One sector is written, the disk is reopened, and the sector cannot be read. -/
theorem reopenedDisk_forgets :
    ¬ ∀ primitives size encryption_key operations, primitives.Lawful → size ≤ kMaxPersistentSize →
      (∀ operation ∈ operations, Operation.InDrive size operation) →
        Meets (step primitives size encryption_key) (Faithful primitives size encryption_key)
          (start primitives size encryption_key) operations := by
  intro stated
  have inDrive : ∀ operation ∈ [.diskWrite 0 [blankSector], .reopen, .diskRead 0 1],
      Operation.InDrive 100000 operation := by
    intro operation member
    simp only [List.mem_cons, List.not_mem_nil, or_false] at member
    rcases member with rfl | rfl | rfl
    · exact (by decide : 1 ≤ numSectors 100000)
    · trivial
    · exact (by decide : 1 ≤ numSectors 100000)
  obtain ⟨-, later⟩ := stated plainPrimitives 100000 [] _ plainPrimitives_lawful (by decide) inDrive
  obtain ⟨-, later⟩ := later writtenMachine (step_of_defined writtenMachine_defined)
  obtain ⟨⟨readBack, -⟩, -⟩ := later reopenedMachine (step_of_defined rfl)
  have found := readBack [blankSector] (by decide) reopenedMachine_written
  rw [reopenedMachine_diskRead] at found
  cases found

end Example

end Conclave.Filesystem
