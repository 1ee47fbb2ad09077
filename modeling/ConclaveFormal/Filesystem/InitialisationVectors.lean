import ConclaveFormal.Filesystem.ReadAfterWrite

/-!
# Initialisation vectors

The initialisation vector of a sector is its place in the host's file, whatever is written
to it and in whichever session.  Two different sectors never share one; a sector that is
written again with other contents always uses it again under the same key.
-/

set_option autoImplicit false

namespace Conclave.Filesystem

open Conclave.Lib PersistentDisk

/-! ## Places and vectors -/

theorem initialisationVector_injective {first second : Nat} (firstFits : first < 256 ^ 8)
    (secondFits : second < 256 ^ 8)
    (same : initialisationVector first = initialisationVector second) : first = second := by
  have reversed := List.append_cancel_right same
  have encoded := List.reverse_injective reversed
  rw [← ofBigEndian_bigEndian_of_lt 8 first firstFits,
    ← ofBigEndian_bigEndian_of_lt 8 second secondFits, encoded]

theorem squareRoot_le {num_sectors : Nat} (fits : num_sectors ≤ UINT_MAX) :
    squareRoot num_sectors ≤ 65536 := by
  have root : num_sectors.sqrt < 65536 := Nat.sqrt_lt'.mpr (lt_of_le_of_lt fits (by decide))
  rw [squareRoot]
  split
  · omega
  · omega

theorem covered_lt {size : Nat} (admitted : size ≤ kMaxPersistentSize) :
    covered size < 256 ^ 8 := by
  have count : numSectors size ≤ UINT_MAX :=
    (Nat.div_le_div_right admitted).trans (by decide)
  have root := squareRoot_le count
  have table1 : sizeTable1 (numSectors size) ≤ 66048 := by
    rw [sizeTable1, SECTOR_SIZE]
    omega
  have table2 : sizeTable2 (numSectors size) ≤ UINT_MAX :=
    max_le ((Nat.div_le_self _ _).trans count) (by decide)
  calc covered size ≤ 66048 * UINT_MAX := Nat.mul_le_mul table1 table2
    _ < 256 ^ 8 := by decide

section Drive

variable {primitives : Primitives} (lawful : primitives.Lawful) {size : Nat}
  {encryption_key : Bytes}

include lawful in
theorem place_lt {sector : UInt32} {sector_id : Nat}
    (found : place primitives size encryption_key sector = some sector_id) :
    sector_id < covered size := by
  obtain ⟨⟨buckets, bucketCount⟩, offsets, offsetCount⟩ :=
    openDisk_tables lawful size encryption_key
  rw [covered, ← bucketCount, ← offsetCount]
  exact twoLevel_lt buckets offsets found

/-! ## The calls of `encrypt` -/

/-- The sectors of a write with their contents. -/
def numbered : UInt32 → List Sector → List (UInt32 × Sector)
  | _, [] => []
  | sector, plaintext :: input => (sector, plaintext) :: numbered (sector + 1) input

/-- What an operation writes before it accesses a sector that the tables do not cover. -/
def sectorWrites (size : Nat) : Operation → List (UInt32 × Sector)
  | .diskWrite sector input =>
      (numbered sector input).takeWhile fun write => write.1.toNat < covered size
  | .diskRead _ _ => []
  | .diskIoCtl _ => []
  | .reopen => []

/-- The calls of `encrypt` are those for the sectors that were written, and each uses the place of
its sector. -/
structure Encrypts (primitives : Primitives) (size : Nat) (encryption_key : Bytes)
    (writes : List (UInt32 × Sector)) (machine : Machine) : Prop where
  disk : OfDrive primitives size encryption_key machine.disk
  writes : machine.encryptions.map (fun encryption => (encryption.sector, encryption.plaintext)) =
    writes.reverse
  vectors : ∀ encryption ∈ machine.encryptions, ∃ sector_id,
    place primitives size encryption_key encryption.sector = some sector_id ∧
      encryption.iv = initialisationVector sector_id

theorem Encrypts.writeSector {writes : List (UInt32 × Sector)} {machine : Machine}
    (encrypts : Encrypts primitives size encryption_key writes machine) {sector : UInt32}
    {sector_id : Nat} (found : place primitives size encryption_key sector = some sector_id)
    (plaintext : Sector) :
    Encrypts primitives size encryption_key (writes ++ [(sector, plaintext)])
      (machine.writeSector primitives sector sector_id plaintext) := by
  refine ⟨⟨encrypts.disk.num_sectors_, encrypts.disk.sectors_table_1_,
    encrypts.disk.sectors_table_2_, encrypts.disk.encryption_key_⟩, ?_, ?_⟩
  · rw [List.reverse_append, ← encrypts.writes]
    rfl
  · intro encryption member
    rcases List.mem_cons.mp member with rfl | earlier
    · exact ⟨sector_id, found, rfl⟩
    · exact encrypts.vectors encryption earlier

include lawful in
theorem Encrypts.diskWrite {writes : List (UInt32 × Sector)} {machine : Machine}
    (encrypts : Encrypts primitives size encryption_key writes machine) (sector : UInt32)
    (input : List Sector) :
    Encrypts primitives size encryption_key
      (writes ++ sectorWrites size (.diskWrite sector input))
      (machine.diskWrite primitives sector input).2 := by
  induction input generalizing writes machine sector with
  | nil =>
      rw [sectorWrites, numbered, List.takeWhile_nil, List.append_nil]
      exact encrypts
  | cons plaintext input ih =>
      have defined := place_isSome lawful size encryption_key sector
      rw [diskWrite_cons, encrypts.disk.mapSectorId, sectorWrites, numbered]
      cases found : place primitives size encryption_key sector with
      | none =>
          have outside : ¬ sector.toNat < covered size := by
            intro inside
            obtain ⟨sector_id, place⟩ := defined.mpr inside
            rw [found] at place
            cases place
          rw [List.takeWhile_cons_of_neg (by simpa using outside), List.append_nil]
          exact encrypts
      | some sector_id =>
          have inside : sector.toNat < covered size := defined.mp ⟨sector_id, found⟩
          have later := ih (encrypts.writeSector found plaintext) (sector + 1)
          rw [List.takeWhile_cons_of_pos (by simpa using inside)]
          rw [List.append_assoc] at later
          exact later

include lawful in
theorem Encrypts.perform {writes : List (UInt32 × Sector)} {machine : Machine}
    (encrypts : Encrypts primitives size encryption_key writes machine) (operation : Operation) :
    Encrypts primitives size encryption_key (writes ++ sectorWrites size operation)
      (perform primitives size encryption_key machine operation).2 := by
  cases operation with
  | diskRead sector num_reads =>
      rw [sectorWrites, List.append_nil]
      exact ⟨encrypts.disk, encrypts.writes, encrypts.vectors⟩
  | diskWrite sector input => exact encrypts.diskWrite lawful sector input
  | diskIoCtl cmd =>
      rw [sectorWrites, List.append_nil]
      cases cmd with
      | CTRL_SYNC => exact ⟨encrypts.disk, encrypts.writes, encrypts.vectors⟩
      | GET_SECTOR_COUNT => exact encrypts
      | GET_SECTOR_SIZE => exact encrypts
      | GET_BLOCK_SIZE => exact encrypts
      | other => exact encrypts
  | reopen =>
      rw [sectorWrites, List.append_nil]
      exact ⟨openDisk_ofDrive size encryption_key, encrypts.writes, encrypts.vectors⟩

include lawful in
theorem Encrypts.run {writes : List (UInt32 × Sector)} {machine final : Machine}
    (encrypts : Encrypts primitives size encryption_key writes machine)
    {operations : List Operation}
    (ran : run (step primitives size encryption_key) machine operations = some final) :
    Encrypts primitives size encryption_key (writes ++ operations.flatMap (sectorWrites size))
      final := by
  induction operations generalizing writes machine with
  | nil =>
      cases ran
      rw [List.flatMap_nil, List.append_nil]
      exact encrypts
  | cons operation rest ih =>
      obtain ⟨next, stepped, ran⟩ := run_cons ran
      have after := encrypts.perform lawful operation
      rw [← step_eq_some stepped] at after
      rw [List.flatMap_cons, ← List.append_assoc]
      exact ih after ran

theorem start_encrypts :
    Encrypts primitives size encryption_key [] (start primitives size encryption_key) :=
  ⟨openDisk_ofDrive size encryption_key, rfl, fun _ member => (by cases member)⟩

include lawful in
/-- Two calls use one vector exactly if they are for one sector. -/
theorem Encrypts.iv_eq_iff (admitted : size ≤ kMaxPersistentSize)
    {writes : List (UInt32 × Sector)} {machine : Machine}
    (encrypts : Encrypts primitives size encryption_key writes machine)
    {first second : Encryption} (firstMember : first ∈ machine.encryptions)
    (secondMember : second ∈ machine.encryptions) :
    first.iv = second.iv ↔ first.sector = second.sector := by
  obtain ⟨firstId, firstFound, firstVector⟩ := encrypts.vectors first firstMember
  obtain ⟨secondId, secondFound, secondVector⟩ := encrypts.vectors second secondMember
  have bound := covered_lt admitted
  have firstFits := (place_lt lawful firstFound).trans bound
  have secondFits := (place_lt lawful secondFound).trans bound
  constructor
  · intro same
    rw [firstVector, secondVector] at same
    have place := initialisationVector_injective firstFits secondFits same
    subst place
    exact place_injective lawful size encryption_key firstFound secondFound
  · intro same
    rw [same, secondFound] at firstFound
    cases firstFound
    rw [firstVector, secondVector]

theorem Encrypts.mem_writes_iff {writes : List (UInt32 × Sector)} {machine : Machine}
    (encrypts : Encrypts primitives size encryption_key writes machine)
    (write : UInt32 × Sector) :
    write ∈ writes ↔ ∃ encryption ∈ machine.encryptions,
      (encryption.sector, encryption.plaintext) = write := by
  rw [← List.mem_reverse, ← encrypts.writes, List.mem_map]

end Drive

/-! ## When vectors are not reused -/

def DistinctIVs (encryptions : List Encryption) : Prop :=
  ∀ first ∈ encryptions, ∀ second ∈ encryptions,
    first.plaintext ≠ second.plaintext → first.iv ≠ second.iv

/-- In a run over any number of sessions, and also in an operation that becomes undefined, no
vector is used for two plaintexts exactly if no sector is written with two contents. -/
theorem distinctIVs_iff {primitives : Primitives} (lawful : primitives.Lawful) {size : Nat}
    (admitted : size ≤ kMaxPersistentSize) {encryption_key : Bytes} {operations : List Operation}
    {machine : Machine}
    (ran : run (step primitives size encryption_key) (start primitives size encryption_key)
      operations = some machine) (operation : Operation) :
    DistinctIVs (perform primitives size encryption_key machine operation).2.encryptions ↔
      ∀ first ∈ (operations ++ [operation]).flatMap (sectorWrites size),
        ∀ second ∈ (operations ++ [operation]).flatMap (sectorWrites size),
          first.1 = second.1 → first.2 = second.2 := by
  have encrypts := (start_encrypts.run lawful ran).perform lawful operation
  rw [List.nil_append] at encrypts
  rw [List.flatMap_append, List.flatMap_singleton]
  constructor
  · intro distinct first firstWritten second secondWritten same
    obtain ⟨firstCall, firstMember, rfl⟩ := (encrypts.mem_writes_iff first).mp firstWritten
    obtain ⟨secondCall, secondMember, rfl⟩ := (encrypts.mem_writes_iff second).mp secondWritten
    by_contra different
    have vectors := (encrypts.iv_eq_iff lawful admitted firstMember secondMember).mpr same
    exact distinct firstCall firstMember secondCall secondMember different vectors
  · intro rewritten first firstMember second secondMember different vectors
    have same := (encrypts.iv_eq_iff lawful admitted firstMember secondMember).mp vectors
    have firstWritten := (encrypts.mem_writes_iff _).mpr ⟨first, firstMember, rfl⟩
    have secondWritten := (encrypts.mem_writes_iff _).mpr ⟨second, secondMember, rfl⟩
    exact different (rewritten _ firstWritten _ secondWritten same)

/-! ## A sector that is written twice -/

section Example

def otherSector : Sector := ⟨List.replicate SECTOR_SIZE 48, List.length_replicate⟩

theorem writtenMachine_run :
    run (step plainPrimitives 100000 []) (start plainPrimitives 100000 [])
      [.diskWrite 0 [blankSector]] = some writtenMachine := by
  rw [run, step_of_defined writtenMachine_defined]
  rfl

theorem rewritten_encryptions :
    (perform plainPrimitives 100000 [] writtenMachine (.diskWrite 0 [otherSector])).2.encryptions =
      [⟨0, initialisationVector 0, otherSector⟩, ⟨0, initialisationVector 0, blankSector⟩] := by
  decide +kernel

theorem distinctIVs_iff_blankSector : DistinctIVs
    (perform plainPrimitives 100000 [] writtenMachine
      (.diskWrite 1 [otherSector])).2.encryptions := by
  apply (distinctIVs_iff plainPrimitives_lawful (by decide) writtenMachine_run _).mpr
  have writes : ([Operation.diskWrite 0 [blankSector]] ++
      [Operation.diskWrite 1 [otherSector]]).flatMap (sectorWrites 100000) =
        [((0 : UInt32), blankSector), (1, otherSector)] := by decide +kernel
  rw [writes]
  intro first firstMember second secondMember same
  simp only [List.mem_cons, List.not_mem_nil, or_false] at firstMember secondMember
  rcases firstMember with rfl | rfl
  · rcases secondMember with rfl | rfl
    · rfl
    · exact absurd same (by decide)
  · rcases secondMember with rfl | rfl
    · exact absurd same (by decide)
    · rfl

/-- Writing a sector again takes the same vector for other contents. -/
theorem rewrittenSector_reusesIV :
    ¬ ∀ primitives size encryption_key operations machine operation, primitives.Lawful →
      size ≤ kMaxPersistentSize →
      run (step primitives size encryption_key) (start primitives size encryption_key)
        operations = some machine →
        DistinctIVs (perform primitives size encryption_key machine operation).2.encryptions := by
  intro stated
  have distinct := stated plainPrimitives 100000 [] _ _ (.diskWrite 0 [otherSector])
    plainPrimitives_lawful (by decide) writtenMachine_run
  rw [rewritten_encryptions] at distinct
  exact distinct _ (List.mem_cons_self) _ (List.mem_cons_of_mem _ List.mem_cons_self)
    (by decide +kernel) rfl

end Example

end Conclave.Filesystem
