import ConclaveFormal.Filesystem.Descriptors

/-!
# The in-memory disk

The sectors of the RAM disk are in one buffer.  `diskRead` and `diskWrite` compute where a sector is
in integers of different widths, and both refuse a range that ends with the last byte of the buffer.
-/

set_option autoImplicit false

namespace Conclave.Filesystem.RamDisk

open Conclave.Lib

/-! ## The disk -/

def uintptr (value : Nat) : Nat := value % 2 ^ 64

/-- `ram_buffer_` is an address of the enclave's, `memory` what is at each address. -/
structure InMemoryDisk where
  drive_size_ : Nat
  ram_buffer_ : Nat
  memory : Nat → UInt8
  admitted : 0 < drive_size_ ∧ drive_size_ ≤ kMaxInMemorySize
  userSpace : ram_buffer_ < 2 ^ 47

namespace InMemoryDisk

/-- The memory from `calloc` is zero. -/
def diskStart (drive_size_ ram_buffer_ : Nat) (memory : Nat → UInt8)
    (admitted : 0 < drive_size_ ∧ drive_size_ ≤ kMaxInMemorySize)
    (userSpace : ram_buffer_ < 2 ^ 47) : InMemoryDisk where
  drive_size_ := drive_size_
  ram_buffer_ := ram_buffer_
  memory := fun address =>
    if ram_buffer_ ≤ address ∧ address < ram_buffer_ + drive_size_ then 0 else memory address
  admitted := admitted
  userSpace := userSpace

variable (disk : InMemoryDisk)

def getNumSectors : Nat := disk.drive_size_ / SECTOR_SIZE

/-- The range of memory is in the buffer and ends before its last byte. -/
def contains (ptr size : Nat) : Prop :=
  disk.ram_buffer_ ≤ ptr ∧
    uintptr (ptr + size) < uintptr (disk.ram_buffer_ + disk.drive_size_)

instance (ptr size : Nat) : Decidable (disk.contains ptr size) :=
  inferInstanceAs (Decidable (_ ∧ _))

/-- The product is of the type of `start`. -/
def read_from_ptr (start : UInt32) : Nat :=
  uintptr (disk.ram_buffer_ + (start * UInt32.ofNat SECTOR_SIZE).toNat)

def write_to_ptr (start : UInt32) : Nat :=
  uintptr (disk.ram_buffer_ + uintptr (start.toNat * SECTOR_SIZE))

def diskRead (start : UInt32) (num_reads : UInt8) : DRESULT × List UInt8 :=
  let read_size := num_reads.toNat * SECTOR_SIZE
  if disk.contains (disk.read_from_ptr start) read_size then
    (.RES_OK, (List.range read_size).map fun i => disk.memory (disk.read_from_ptr start + i))
  else (.RES_PARERR, [])

/-- `memcpy` of so many bytes from the caller's buffer. -/
def copyIn (ptr size : Nat) (input_buf : Nat → UInt8) : InMemoryDisk :=
  { disk with
    memory := fun address =>
      if ptr ≤ address ∧ address < ptr + size then input_buf (address - ptr)
      else disk.memory address }

def diskWrite (input_buf : Nat → UInt8) (start : UInt32) (num : UInt8) :
    DRESULT × InMemoryDisk :=
  let write_size := num.toNat * SECTOR_SIZE
  if disk.contains (disk.write_to_ptr start) write_size then
    (.RES_OK, disk.copyIn (disk.write_to_ptr start) write_size input_buf)
  else (.RES_PARERR, disk)

/-- The result and what is stored in the buffer of the caller. -/
def diskIoCtl : Command → DRESULT × Option Nat
  | .CTRL_SYNC => (.RES_OK, none)
  | .GET_BLOCK_SIZE => (.RES_PARERR, none)
  | .GET_SECTOR_SIZE => (.RES_OK, some SECTOR_SIZE)
  | .GET_SECTOR_COUNT => (.RES_OK, some (UInt32.ofNat disk.getNumSectors).toNat)
  | .other => (.RES_ERROR, none)

end InMemoryDisk

/-! ## Runs -/

/-- `lastWrite` is for the specification only: the bytes of the last `diskWrite` to each sector of
the drive, or zeros. -/
structure Machine where
  disk : InMemoryDisk
  lastWrite : Nat → Nat → UInt8

inductive Operation where
  | diskRead (start : UInt32) (num_reads : UInt8)
  | diskWrite (input_buf : Nat → UInt8) (start : UInt32) (num : UInt8)

namespace Machine

/-- The sectors are in the range that `GET_SECTOR_COUNT` gives. -/
def InRange (machine : Machine) (start : UInt32) (num : UInt8) : Prop :=
  ∀ count, machine.disk.diskIoCtl .GET_SECTOR_COUNT = (.RES_OK, some count) →
    start.toNat + num.toNat ≤ count

def perform (machine : Machine) : Operation → Machine
  | .diskRead _ _ => machine
  | .diskWrite input_buf start num =>
      { disk := (machine.disk.diskWrite input_buf start num).2
        lastWrite := fun sector i =>
          if start.toNat + num.toNat ≤ machine.disk.getNumSectors ∧ start.toNat ≤ sector ∧
              sector < start.toNat + num.toNat then
            input_buf ((sector - start.toNat) * SECTOR_SIZE + i)
          else machine.lastWrite sector i }

end Machine

def step (machine : Machine) (operation : Operation) : Option Machine :=
  some (machine.perform operation)

def start (drive_size_ ram_buffer_ : Nat) (memory : Nat → UInt8)
    (admitted : 0 < drive_size_ ∧ drive_size_ ≤ kMaxInMemorySize)
    (userSpace : ram_buffer_ < 2 ^ 47) : Machine :=
  ⟨.diskStart drive_size_ ram_buffer_ memory admitted userSpace, fun _ _ => 0⟩

/-- Within the drive an operation succeeds, and a read gives what was written last; beyond it, it is
refused and changes nothing. -/
def Faithful (machine : Machine) : Operation → Prop
  | .diskRead start num_reads =>
      (machine.InRange start num_reads →
        machine.disk.diskRead start num_reads =
          (.RES_OK, (List.range (num_reads.toNat * SECTOR_SIZE)).map fun i =>
            machine.lastWrite (start.toNat + i / SECTOR_SIZE) (i % SECTOR_SIZE))) ∧
      (¬machine.InRange start num_reads →
        (machine.disk.diskRead start num_reads).1 = .RES_PARERR)
  | .diskWrite input_buf start num =>
      (machine.InRange start num → (machine.disk.diskWrite input_buf start num).1 = .RES_OK) ∧
      (¬machine.InRange start num →
        machine.disk.diskWrite input_buf start num = (.RES_PARERR, machine.disk))

/-- The first sector from which the product of `diskRead` wraps around. -/
def wrapSector : Nat := 2 ^ 23

/-- The operation does not end with the last byte of the buffer, and a read that starts at 4 GiB or
behind finds the same bytes where it wraps around to, or is refused there too. -/
def Admissible (machine : Machine) : Operation → Prop
  | .diskRead start num_reads =>
      (start.toNat < wrapSector →
        (start.toNat + num_reads.toNat) * SECTOR_SIZE ≠ machine.disk.drive_size_) ∧
      (wrapSector ≤ start.toNat →
        if start.toNat + num_reads.toNat ≤ machine.disk.getNumSectors then
          ∀ sector < num_reads.toNat, ∀ i < SECTOR_SIZE,
            machine.lastWrite (start.toNat % wrapSector + sector) i =
              machine.lastWrite (start.toNat + sector) i
        else machine.disk.drive_size_ ≤
          (start.toNat % wrapSector + num_reads.toNat) * SECTOR_SIZE)
  | .diskWrite _ start num =>
      (start.toNat + num.toNat) * SECTOR_SIZE ≠ machine.disk.drive_size_

structure Sound (machine : Machine) : Prop where
  stored : ∀ sector < machine.disk.getNumSectors, ∀ i < SECTOR_SIZE,
    machine.disk.memory (machine.disk.ram_buffer_ + sector * SECTOR_SIZE + i) =
      machine.lastWrite sector i

/-! ## Addresses -/

variable {disk : InMemoryDisk} {machine : Machine}

theorem write_to_ptr_eq (disk : InMemoryDisk) (start : UInt32) :
    disk.write_to_ptr start = disk.ram_buffer_ + start.toNat * SECTOR_SIZE := by
  have low := disk.userSpace
  have bound := start.toNat_lt
  simp only [InMemoryDisk.write_to_ptr, uintptr, SECTOR_SIZE]
  omega

/-- `diskRead` starts at the sector modulo 2^23. -/
theorem read_from_ptr_eq (disk : InMemoryDisk) (start : UInt32) :
    disk.read_from_ptr start =
      disk.ram_buffer_ + start.toNat % wrapSector * SECTOR_SIZE := by
  have low := disk.userSpace
  have product : (start * UInt32.ofNat SECTOR_SIZE).toNat = start.toNat * 512 % 2 ^ 32 :=
    UInt32.toNat_mul start (UInt32.ofNat SECTOR_SIZE)
  rw [InMemoryDisk.read_from_ptr, product]
  simp only [uintptr, wrapSector, SECTOR_SIZE]
  omega

theorem contains_iff {offset size : Nat} (near : offset + size < 2 ^ 63) :
    disk.contains (disk.ram_buffer_ + offset) size ↔ offset + size < disk.drive_size_ := by
  have low := disk.userSpace
  have large := disk.admitted.2
  have limit : kMaxInMemorySize = 2199023255040 := rfl
  simp only [InMemoryDisk.contains, uintptr]
  omega

/-- The count fits into the type that `diskIoCtl` stores it in. -/
theorem inRange_iff {start : UInt32} {num : UInt8} :
    machine.InRange start num ↔
      start.toNat + num.toNat ≤ machine.disk.getNumSectors := by
  have large := machine.disk.admitted.2
  have limit : kMaxInMemorySize = 2199023255040 := rfl
  have fits : machine.disk.getNumSectors < 2 ^ 32 := by
    simp only [InMemoryDisk.getNumSectors, SECTOR_SIZE]
    omega
  have count : (UInt32.ofNat machine.disk.getNumSectors).toNat = machine.disk.getNumSectors :=
    UInt32.toNat_ofNat_of_lt' fits
  simp only [Machine.InRange, InMemoryDisk.diskIoCtl, count, Prod.mk.injEq, Option.some.injEq,
    true_and, forall_eq']

theorem le_getNumSectors_iff (disk : InMemoryDisk) (sectors : Nat) :
    sectors ≤ disk.getNumSectors ↔ sectors * SECTOR_SIZE ≤ disk.drive_size_ := by
  simp only [InMemoryDisk.getNumSectors, SECTOR_SIZE]
  omega

/-! ## Writing -/

theorem diskWrite_eq (disk : InMemoryDisk) (input_buf : Nat → UInt8) (start : UInt32)
    (num : UInt8) :
    disk.diskWrite input_buf start num =
      if (start.toNat + num.toNat) * SECTOR_SIZE < disk.drive_size_ then
        (.RES_OK, disk.copyIn (disk.ram_buffer_ + start.toNat * SECTOR_SIZE)
          (num.toNat * SECTOR_SIZE) input_buf)
      else (.RES_PARERR, disk) := by
  have startBound := start.toNat_lt
  have numBound := num.toNat_lt
  have near : start.toNat * SECTOR_SIZE + num.toNat * SECTOR_SIZE < 2 ^ 63 := by
    simp only [SECTOR_SIZE]
    omega
  have inside := @contains_iff disk _ _ near
  rw [← Nat.add_mul] at inside
  simp only [InMemoryDisk.diskWrite, write_to_ptr_eq, inside]

theorem faithful_diskWrite_iff (machine : Machine) (input_buf : Nat → UInt8) (start : UInt32)
    (num : UInt8) :
    Faithful machine (.diskWrite input_buf start num) ↔
      Admissible machine (.diskWrite input_buf start num) := by
  have range := le_getNumSectors_iff machine.disk (start.toNat + num.toNat)
  simp only [Faithful, Admissible, inRange_iff, diskWrite_eq, range]
  split_ifs with inside
  · refine iff_of_true ⟨fun _ => rfl, fun beyond => absurd inside.le beyond⟩ inside.ne
  · constructor
    · rintro ⟨served, -⟩ last
      cases served last.le
    · intro notLast
      refine ⟨fun within => absurd (lt_of_le_of_ne within notLast) inside, fun _ => rfl⟩

/-! ## Reading -/

theorem diskRead_eq (disk : InMemoryDisk) (start : UInt32) (num_reads : UInt8) :
    disk.diskRead start num_reads =
      if (start.toNat % wrapSector + num_reads.toNat) * SECTOR_SIZE < disk.drive_size_ then
        (.RES_OK, (List.range (num_reads.toNat * SECTOR_SIZE)).map fun i =>
          disk.memory (disk.ram_buffer_ + start.toNat % wrapSector * SECTOR_SIZE + i))
      else (.RES_PARERR, []) := by
  have startBound := start.toNat_lt
  have numBound := num_reads.toNat_lt
  have near : start.toNat % wrapSector * SECTOR_SIZE + num_reads.toNat * SECTOR_SIZE < 2 ^ 63 := by
    simp only [SECTOR_SIZE, wrapSector]
    omega
  have inside := @contains_iff disk _ _ near
  rw [← Nat.add_mul] at inside
  simp only [InMemoryDisk.diskRead, read_from_ptr_eq, inside]

/-- The bytes of whole sectors, one after the other. -/
theorem Sound.read (sound : Sound machine) {sector num : Nat}
    (inside : sector + num ≤ machine.disk.getNumSectors) :
    ((List.range (num * SECTOR_SIZE)).map fun i =>
      machine.disk.memory (machine.disk.ram_buffer_ + sector * SECTOR_SIZE + i)) =
    (List.range (num * SECTOR_SIZE)).map fun i =>
      machine.lastWrite (sector + i / SECTOR_SIZE) (i % SECTOR_SIZE) := by
  apply List.map_congr_left
  intro i member
  have bound := List.mem_range.mp member
  have within : sector + i / SECTOR_SIZE < machine.disk.getNumSectors := by
    have below : i / SECTOR_SIZE < num := (Nat.div_lt_iff_lt_mul (by decide)).mpr bound
    omega
  have place : machine.disk.ram_buffer_ + sector * SECTOR_SIZE + i =
      machine.disk.ram_buffer_ + (sector + i / SECTOR_SIZE) * SECTOR_SIZE + i % SECTOR_SIZE := by
    simp only [SECTOR_SIZE]
    omega
  rw [← sound.stored _ within _ (Nat.mod_lt _ (by decide)), place]

/-- Two ranges hold the same bytes exactly if each pair of their sectors does. -/
theorem sectors_eq_iff {lastWrite : Nat → Nat → UInt8} {first second num : Nat} :
    ((List.range (num * SECTOR_SIZE)).map fun i =>
      lastWrite (first + i / SECTOR_SIZE) (i % SECTOR_SIZE)) =
    ((List.range (num * SECTOR_SIZE)).map fun i =>
      lastWrite (second + i / SECTOR_SIZE) (i % SECTOR_SIZE)) ↔
    ∀ sector < num, ∀ i < SECTOR_SIZE,
      lastWrite (first + sector) i = lastWrite (second + sector) i := by
  rw [List.map_inj_left]
  constructor
  · intro same sector below i bound
    have index : sector * SECTOR_SIZE + i < num * SECTOR_SIZE := by
      calc sector * SECTOR_SIZE + i < sector * SECTOR_SIZE + SECTOR_SIZE := by omega
        _ = (sector + 1) * SECTOR_SIZE := (Nat.succ_mul _ _).symm
        _ ≤ num * SECTOR_SIZE := Nat.mul_le_mul_right _ below
    have bytes := same _ (List.mem_range.mpr index)
    have quotient : (sector * SECTOR_SIZE + i) / SECTOR_SIZE = sector := by
      simp only [SECTOR_SIZE] at bound ⊢
      omega
    have remainder : (sector * SECTOR_SIZE + i) % SECTOR_SIZE = i := by
      simp only [SECTOR_SIZE] at bound ⊢
      omega
    rw [quotient, remainder] at bytes
    exact bytes
  · intro same i member
    have below : i / SECTOR_SIZE < num :=
      (Nat.div_lt_iff_lt_mul (by decide)).mpr (List.mem_range.mp member)
    exact same _ below _ (Nat.mod_lt _ (by decide))

theorem Sound.faithful_diskRead_iff (sound : Sound machine) (start : UInt32) (num_reads : UInt8) :
    Faithful machine (.diskRead start num_reads) ↔
      Admissible machine (.diskRead start num_reads) := by
  have range := le_getNumSectors_iff machine.disk (start.toNat + num_reads.toNat)
  simp only [Faithful, Admissible, inRange_iff, diskRead_eq]
  by_cases wraps : wrapSector ≤ start.toNat
  · have lower : start.toNat % wrapSector + wrapSector ≤ start.toNat := by
      simp only [wrapSector] at wraps ⊢
      omega
    have positive : 0 < wrapSector := by decide
    simp only [not_lt.mpr wraps, false_implies, true_and, wraps, true_implies]
    by_cases inRange : start.toNat + num_reads.toNat ≤ machine.disk.getNumSectors
    · have served : (start.toNat % wrapSector + num_reads.toNat) * SECTOR_SIZE <
          machine.disk.drive_size_ := by
        have whole := range.mp inRange
        simp only [SECTOR_SIZE] at whole ⊢
        omega
      rw [if_pos served, if_pos inRange, sound.read (by omega)]
      simp only [inRange, true_implies, not_true_eq_false, false_implies, and_true,
        Prod.mk.injEq, true_and]
      exact sectors_eq_iff
    · rw [if_neg inRange]
      simp only [inRange, false_implies, not_false_eq_true, true_implies, true_and]
      split_ifs with served
      · exact iff_of_false (by simp) (not_le.mpr served)
      · exact iff_of_true rfl (not_lt.mp served)
  · have small : start.toNat % wrapSector = start.toNat := Nat.mod_eq_of_lt (not_le.mp wraps)
    simp only [not_le.mp wraps, wraps, true_implies, false_implies, and_true, small]
    split_ifs with served
    · refine iff_of_true ⟨?_, ?_⟩ served.ne
      · intro inRange
        rw [sound.read inRange]
      · intro beyond
        exact absurd (range.mpr served.le) beyond
    · constructor
      · rintro ⟨served, -⟩ last
        cases served (range.mpr last.le)
      · intro notLast
        refine ⟨?_, fun _ => rfl⟩
        intro inRange
        exact absurd (lt_of_le_of_ne (range.mp inRange) notLast) served

/-! ## Runs -/

theorem Sound.start (drive_size_ ram_buffer_ : Nat) (memory : Nat → UInt8)
    (admitted : 0 < drive_size_ ∧ drive_size_ ≤ kMaxInMemorySize)
    (userSpace : ram_buffer_ < 2 ^ 47) :
    Sound (RamDisk.start drive_size_ ram_buffer_ memory admitted userSpace) where
  stored sector inside i below := by
    have whole := (le_getNumSectors_iff _ (sector + 1)).mp inside
    simp only [RamDisk.start, InMemoryDisk.diskStart] at whole ⊢
    rw [if_pos]
    simp only [SECTOR_SIZE] at below whole ⊢
    omega

/-- What there is at a byte of a sector after sectors have been written. -/
theorem memory_copyIn (disk : InMemoryDisk) (start num : Nat) (input_buf : Nat → UInt8)
    (sector : Nat) {i : Nat} (below : i < SECTOR_SIZE) :
    (disk.copyIn (disk.ram_buffer_ + start * SECTOR_SIZE) (num * SECTOR_SIZE) input_buf).memory
        (disk.ram_buffer_ + sector * SECTOR_SIZE + i) =
      if start ≤ sector ∧ sector < start + num then
        input_buf ((sector - start) * SECTOR_SIZE + i)
      else disk.memory (disk.ram_buffer_ + sector * SECTOR_SIZE + i) := by
  simp only [InMemoryDisk.copyIn]
  by_cases covered : start ≤ sector ∧ sector < start + num
  · rw [if_pos covered, if_pos]
    · congr 1
      simp only [SECTOR_SIZE]
      omega
    · simp only [SECTOR_SIZE] at below ⊢
      omega
  · rw [if_neg covered, if_neg]
    simp only [SECTOR_SIZE] at below ⊢
    omega

theorem Sound.perform (sound : Sound machine) {operation : Operation}
    (admissible : Admissible machine operation) : Sound (machine.perform operation) := by
  cases operation with
  | diskRead start num_reads => exact sound
  | diskWrite input_buf start num =>
      have notLast : (start.toNat + num.toNat) * SECTOR_SIZE ≠ machine.disk.drive_size_ :=
        admissible
      have range := le_getNumSectors_iff machine.disk (start.toNat + num.toNat)
      by_cases inRange : start.toNat + num.toNat ≤ machine.disk.getNumSectors
      · have served : (start.toNat + num.toNat) * SECTOR_SIZE < machine.disk.drive_size_ :=
          lt_of_le_of_ne (range.mp inRange) notLast
        refine ⟨?_⟩
        simp only [Machine.perform, diskWrite_eq, if_pos served, inRange, true_and]
        intro sector inside i below
        refine (memory_copyIn machine.disk start.toNat num.toNat input_buf sector below).trans ?_
        rw [sound.stored sector inside i below]
      · have refused : ¬(start.toNat + num.toNat) * SECTOR_SIZE < machine.disk.drive_size_ :=
          fun served => inRange (range.mpr served.le)
        refine ⟨?_⟩
        simp only [Machine.perform, diskWrite_eq, if_neg refused, inRange, false_and, if_false]
        exact sound.stored

/-- Every call of a run is served as it should be exactly as long as none ends with the last byte of
the drive, and none reads other bytes at 4 GiB or behind than it finds where it wraps around to. -/
theorem faithful_iff (drive_size_ ram_buffer_ : Nat) (memory : Nat → UInt8)
    (admitted : 0 < drive_size_ ∧ drive_size_ ≤ kMaxInMemorySize)
    (userSpace : ram_buffer_ < 2 ^ 47) (operations : List Operation) :
    Meets step Faithful (start drive_size_ ram_buffer_ memory admitted userSpace) operations ↔
      Meets step Admissible (start drive_size_ ram_buffer_ memory admitted userSpace)
        operations := by
  refine Meets.congr ?_ ?_ (Sound.start drive_size_ ram_buffer_ memory admitted userSpace)
  · intro machine operation next sound admissible stepped
    cases stepped
    exact sound.perform admissible
  · intro machine operation sound
    cases operation with
    | diskRead start num_reads => exact sound.faithful_diskRead_iff start num_reads
    | diskWrite input_buf start num => exact faithful_diskWrite_iff machine input_buf start num

theorem faithful_oneSector :
    Meets step Faithful (start 100000 4096 (fun _ => 255) (by decide) (by decide))
      [.diskWrite (fun i => UInt8.ofNat i) 0 1, .diskRead 0 1, .diskRead 195 1] := by
  apply (faithful_iff 100000 4096 (fun _ => 255) (by decide) (by decide) _).mpr
  have before : ¬wrapSector ≤ (0 : UInt32).toNat := by decide
  have beyond : ¬wrapSector ≤ (195 : UInt32).toNat := by decide
  refine .cons ?_ rfl (.cons ⟨fun _ => ?_, fun wraps => absurd wraps before⟩ rfl
    (.cons ⟨fun _ => ?_, fun wraps => absurd wraps beyond⟩ rfl trivial))
  · exact (by decide : (0 + 1) * SECTOR_SIZE ≠ 100000)
  · exact (by decide : (0 + 1) * SECTOR_SIZE ≠ 100000)
  · exact (by decide : (195 + 1) * SECTOR_SIZE ≠ 100000)

/-- The last sector of a drive of 191 sectors cannot be written. -/
theorem last_sector_refused :
    ¬∀ (drive_size_ ram_buffer_ : Nat) (memory : Nat → UInt8)
      (admitted : 0 < drive_size_ ∧ drive_size_ ≤ kMaxInMemorySize)
      (userSpace : ram_buffer_ < 2 ^ 47) (operations : List Operation),
      Meets step Faithful (start drive_size_ ram_buffer_ memory admitted userSpace)
        operations := by
  intro stated
  obtain ⟨⟨served, -⟩, -⟩ := stated 97792 4096 (fun _ => 0) (by decide) (by decide)
    [.diskWrite (fun _ => 0) 190 1]
  have inRange : (190 : UInt32).toNat + (1 : UInt8).toNat ≤ 191 := by decide
  have written := served (inRange_iff.mpr inRange)
  rw [diskWrite_eq, if_neg (by decide)] at written
  cases written

end Conclave.Filesystem.RamDisk
