import ConclaveFormal.Filesystem.ReadAfterWrite

/-!
# The shuffled sectors of a drive

`mapSectorId` moves the sectors by two tables whose sizes come from a rounded square root and a
division.  Where the division leaves a remainder, the last sectors of the drive lie behind the
tables.
-/

set_option autoImplicit false

namespace Conclave.Filesystem

open Conclave.Lib PersistentDisk

/-- The sectors below a bound are moved within the tables, no two of them to one place. -/
structure Shuffled (disk : PersistentDisk) (num_sectors : Nat) : Prop where
  in_tables : ∀ sector_id < num_sectors, ∃ mapped_sector_id,
    disk.mapSectorId sector_id = some mapped_sector_id
  injective : ∀ first < num_sectors, ∀ second < num_sectors,
    disk.mapSectorId first = disk.mapSectorId second → first = second

/-- The tables reach from the first sector to behind the last one. -/
theorem shuffled_iff_le_product {disk : PersistentDisk} (buckets : IsTable disk.sectors_table_1_)
    (offsets : IsTable disk.sectors_table_2_) (nonempty : 0 < disk.sectors_table_2_.length)
    (num_sectors : Nat) :
    Shuffled disk num_sectors ↔
      num_sectors ≤ disk.sectors_table_1_.length * disk.sectors_table_2_.length := by
  have in_tables (sector_id : Nat) : (∃ mapped_sector_id,
      disk.mapSectorId sector_id = some mapped_sector_id) ↔
        sector_id < disk.sectors_table_1_.length * disk.sectors_table_2_.length :=
    twoLevel_isSome nonempty sector_id
  constructor
  · intro shuffled
    by_contra beyond
    have last := (in_tables _).mp (shuffled.in_tables _ (not_le.mp beyond))
    exact Nat.lt_irrefl _ last
  · intro covered
    refine ⟨fun sector_id inside => (in_tables sector_id).mpr (inside.trans_le covered), ?_⟩
    intro first firstInside second _ same
    obtain ⟨mapped_sector_id, found⟩ := (in_tables first).mpr (firstInside.trans_le covered)
    have alsoFound : disk.mapSectorId second = some mapped_sector_id := same.symm.trans found
    exact twoLevel_injective buckets offsets found alsoFound

/-- Whatever `std::shuffle` makes of the tables, they move the sectors of the whole drive exactly
if the drive is small or its number of sectors is a multiple of the first table's size. -/
theorem shuffled_iff {primitives : Primitives}
    (shuffle_perm : ∀ seed table, (primitives.shuffle seed table).Perm table) (size : Nat)
    (encryption_key : Bytes) :
    Shuffled (openDisk primitives size encryption_key) (numSectors size) ↔
      numSectors size < sizeTable1 (numSectors size) ∨
        sizeTable1 (numSectors size) ∣ numSectors size := by
  have buckets := IsTable.of_perm (shuffle_perm
    ((PersistentDisk.new primitives size encryption_key).seed primitives)
    (List.range (sizeTable1 (numSectors size))))
  have offsets := IsTable.of_perm (shuffle_perm
    ((PersistentDisk.new primitives size encryption_key).seed primitives)
    (List.range (sizeTable2 (numSectors size))))
  rw [← openDisk_table1] at buckets
  rw [← openDisk_table2] at offsets
  have nonempty : 0 < (openDisk primitives size encryption_key).sectors_table_2_.length := by
    rw [offsets.2]
    exact sizeTable2_pos _
  rw [shuffled_iff_le_product buckets.1 offsets.1 nonempty, buckets.2, offsets.2]
  exact numSectors_le_covered_iff size

theorem shuffled_oneBucketEach :
    Shuffled (openDisk plainPrimitives 262144 []) (numSectors 262144) :=
  (shuffled_iff plainPrimitives_lawful.shuffle_perm 262144 []).mpr (Or.inr (by decide +kernel))

/-- A drive of 513 sectors has tables of 512 and 1 numbers, and its last sector is not in them. -/
theorem last_sector_unmapped :
    ¬∀ (primitives : Primitives) (size : Nat) (encryption_key : Bytes),
      (∀ seed table, (primitives.shuffle seed table).Perm table) → size ≤ kMaxPersistentSize →
        Shuffled (openDisk primitives size encryption_key) (numSectors size) := by
  intro stated
  have shuffled := stated plainPrimitives 262656 [] plainPrimitives_lawful.shuffle_perm (by decide)
  obtain ⟨mapped_sector_id, found⟩ := shuffled.in_tables 512 (by decide)
  have behind : (openDisk plainPrimitives 262656 []).mapSectorId 512 = none := by decide +kernel
  rw [behind] at found
  cases found

end Conclave.Filesystem
